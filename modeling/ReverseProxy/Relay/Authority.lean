import ReverseProxy.Http1.Uri
import ReverseProxy.Relay.Dispatch

/-!
# Where an authority string leads

`handle_connect` and `handle_forward` cut a `host:port` at its last colon and give
what follows to `strtoul`, whose end pointer they ignore.  This file compares the
endpoints they connect to with those that the string denotes.
-/

namespace ReverseProxy

open Text

namespace RelaySession

/-! ## What a string denotes -/

/-- The string is a host and a port in digits, from 1 to 65535. -/
def HostPort (authority host : Bytes) (port : ℕ) : Prop :=
  ∃ digits, authority = host ++ COLON :: digits ∧ Rfc3986.isHost host = true ∧
    Rfc9112.number? digits = some port ∧ 1 ≤ port ∧ port ≤ 65535

/-- The string is a host alone. -/
def HostOnly (authority host : Bytes) (port : ℕ) : Prop :=
  authority = host ∧ Rfc3986.isHost host = true ∧ port = 80

/-- The endpoint that is connected to, if any. -/
def Dispatch.target? : Dispatch → Option BackendEndpoint
  | .tunnel target => some target
  | .direct target _ => some target
  | _ => none

/-- Connects only where it is allowed to, and answers 400 otherwise. -/
structure Dispatch.ConnectsOnly (dispatch : Dispatch) (Allowed : Bytes → ℕ → Prop) : Prop where
  allowed : ∀ target, dispatch.target? = some target → Allowed target.host target.port
  refused : dispatch.target? = none → ∃ message, dispatch = .reject .badRequest message

/-! ## Cutting at the last colon -/

theorem cutLastColon_eq_some_iff {text host port : Bytes} :
    cutLastColon text = some (host, port) ↔ text = host ++ COLON :: port ∧ COLON ∉ port := by
  rw [cutLastColon, Option.map_eq_some_iff]
  constructor
  · rintro ⟨cut, found, same⟩
    rcases dropInfix?_singleton_eq_some_iff.mp found with ⟨split, fresh⟩
    rcases Prod.mk.inj same with ⟨rfl, rfl⟩
    refine ⟨?_, by simpa using fresh⟩
    rw [← List.reverse_reverse text, split]
    simp
  · rintro ⟨rfl, fresh⟩
    refine ⟨(port.reverse, host.reverse), ?_, by simp⟩
    rw [dropInfix?_singleton_eq_some_iff]
    exact ⟨by simp, by simpa using fresh⟩

theorem cutLastColon_eq_none_iff {text : Bytes} : cutLastColon text = none ↔ COLON ∉ text := by
  rw [cutLastColon, Option.map_eq_none_iff, dropInfix?_singleton_eq_none_iff, List.mem_reverse]

/-- The endpoint that both functions read off a string with a colon. -/
def endpointOf (authority : Bytes) : Option BackendEndpoint :=
  match cutLastColon authority with
  | none => none
  | some (host, port) =>
    if host = [] ∨ portOf port = 0 ∨ 65535 < portOf port then none
    else some { backendId := [], host, port := portOf port }

theorem target?_handleConnect (head : HttpRequestHead) :
    (handleConnect head).target? = endpointOf head.path := by
  unfold handleConnect endpointOf
  cases cutLastColon head.path with
  | none => rfl
  | some cut =>
    rcases cut with ⟨host, port⟩
    have empty : port = [] → portOf port = 0 := by
      rintro rfl
      decide
    simp only
    split_ifs <;> first | rfl | tauto

theorem target?_handleForward {head : HttpRequestHead} (http : head.scheme = ascii "http") :
    (handleForward head).target? =
      if COLON ∈ head.authority then endpointOf head.authority
      else some { backendId := [], host := head.authority, port := 80 } := by
  unfold handleForward endpointOf
  rw [if_neg (not_not.mpr http)]
  cases cut : cutLastColon head.authority with
  | none => simp [cutLastColon_eq_none_iff.mp cut, Dispatch.target?]
  | some parts =>
    rcases parts with ⟨host, port⟩
    have colonMem : COLON ∈ head.authority := by
      rw [(cutLastColon_eq_some_iff.mp cut).1]
      simp
    simp only [colonMem, if_true]
    split_ifs <;> rfl

theorem refused_handleConnect {head : HttpRequestHead}
    (nowhere : (handleConnect head).target? = none) :
    ∃ message, handleConnect head = .reject .badRequest message := by
  unfold handleConnect at nowhere ⊢
  cases cut : cutLastColon head.path with
  | none => exact ⟨_, rfl⟩
  | some parts =>
    simp only [cut] at nowhere ⊢
    split_ifs at nowhere ⊢
    · exact ⟨_, rfl⟩
    · exact ⟨_, rfl⟩
    · simp [Dispatch.target?] at nowhere

theorem refused_handleForward {head : HttpRequestHead}
    (nowhere : (handleForward head).target? = none) :
    ∃ message, handleForward head = .reject .badRequest message := by
  unfold handleForward at nowhere ⊢
  split_ifs at nowhere ⊢
  · exact ⟨_, rfl⟩
  · cases cut : cutLastColon head.authority with
    | none => simp [cut, Dispatch.target?] at nowhere
    | some parts =>
      simp only [cut] at nowhere ⊢
      split_ifs at nowhere ⊢
      · exact ⟨_, rfl⟩
      · simp [Dispatch.target?] at nowhere

/-! ## When the endpoint is the one that the string denotes -/

/-- The number that `strtoul` makes a port of; behind a minus sign it is taken from `2 ^ 64`. -/
def IsPort (sign digits : Bytes) : Prop :=
  ∃ number, Rfc9112.number? digits = some number ∧
    if sign = ascii "-" then 2 ^ 64 - 65535 ≤ number ∧ number < 2 ^ 64
    else 1 ≤ number ∧ number ≤ 65535

/--
What is read off the string is what the string says: a numeral behind the last colon that is
read as a port has no white space and no sign in front and nothing behind, and there is a host
before the colon.
-/
def Unambiguous (authority : Bytes) : Prop :=
  ∀ host spaces sign digits junk,
    cutLastColon authority = some (host, spaces ++ (sign ++ (digits ++ junk))) → host ≠ [] →
      Numeral spaces sign digits junk → IsPort sign digits →
        (spaces = [] ∧ sign = [] ∧ junk = []) ∧ Rfc3986.isHost host = true

theorem endpointOf_eq_some_iff {authority : Bytes} {target : BackendEndpoint} :
    endpointOf authority = some target ↔
      ∃ host digits, cutLastColon authority = some (host, digits) ∧ host ≠ [] ∧
        1 ≤ portOf digits ∧ portOf digits ≤ 65535 ∧
        target = { backendId := [], host, port := portOf digits } := by
  unfold endpointOf
  cases cut : cutLastColon authority with
  | none => simp
  | some parts =>
    rcases parts with ⟨host, digits⟩
    simp only [Option.some.injEq, Prod.mk.injEq]
    split_ifs with outside
    · simp only [false_iff]
      rintro ⟨_, _, ⟨rfl, rfl⟩, named, positive, bounded, -⟩
      rcases outside with noHost | zero | large
      · exact named noHost
      · omega
      · omega
    · rw [not_or, not_or] at outside
      constructor
      · intro same
        exact ⟨host, digits, ⟨rfl, rfl⟩, outside.1, by omega, by omega,
          (Option.some.inj same).symm⟩
      · rintro ⟨_, _, ⟨rfl, rfl⟩, -, -, -, rfl⟩
        rfl

theorem portOf_of_numeral {spaces sign digits junk : Bytes}
    (isNumeral : Numeral spaces sign digits junk) {number : ℕ}
    (isNumber : Rfc9112.number? digits = some number) :
    portOf (spaces ++ (sign ++ (digits ++ junk))) =
      if ulongMax < number then ulongMax
      else if sign = ascii "-" then (2 ^ 64 - number) % 2 ^ 64 else number := by
  have minus : ascii "-" = [45] := by decide
  rcases Rfc9112.number?_eq_some isNumber with ⟨nonempty, decimal, rfl⟩
  rw [portOf, strtoul, isNumeral.numeral_eq, minus]
  split
  · rename_i isNil
    exact absurd (Prod.mk.inj isNil).2 (leadingDigits_ne_nil nonempty decimal)
  · rename_i same
    rcases Prod.mk.inj same with ⟨rfl, rfl⟩
    simp only [decide_eq_true_eq]
    split_ifs <;> rfl

theorem unsigned_ne_minus : ([] : Bytes) ≠ ascii "-" := by decide

theorem portOf_of_number? {digits : Bytes} {number : ℕ}
    (isNumber : Rfc9112.number? digits = some number) (bounded : number ≤ 65535) :
    portOf digits = number := by
  have bound : ulongMax = 2 ^ 64 - 1 := rfl
  rcases Rfc9112.number?_eq_some isNumber with ⟨nonempty, decimal, -⟩
  have read := portOf_of_numeral (numeral_bare nonempty decimal) isNumber
  rw [if_neg (by omega), if_neg unsigned_ne_minus] at read
  simpa using read

theorem isPort_iff {spaces sign digits junk : Bytes}
    (isNumeral : Numeral spaces sign digits junk) :
    IsPort sign digits ↔ 1 ≤ portOf (spaces ++ (sign ++ (digits ++ junk))) ∧
      portOf (spaces ++ (sign ++ (digits ++ junk))) ≤ 65535 := by
  have bound : ulongMax = 2 ^ 64 - 1 := rfl
  have isNumber : Rfc9112.number? digits = some (ofDigits 10 (leadingDigits 10 digits)) :=
    if_pos ⟨isNumeral.nonempty, List.all_eq_true.mpr isNumeral.isDigits⟩
  rw [portOf_of_numeral isNumeral isNumber, IsPort, isNumber]
  simp only [Option.some.injEq, exists_eq_left']
  split_ifs <;> omega

/-- What `strtoul` reads as a port is a numeral. -/
theorem exists_numeral_of_portOf {text : Bytes} (positive : 1 ≤ portOf text) :
    ∃ spaces sign digits junk, text = spaces ++ (sign ++ (digits ++ junk)) ∧
      Numeral spaces sign digits junk := by
  apply exists_numeral
  intro none
  rw [portOf, strtoul] at positive
  split at positive
  · simp at positive
  · simp_all

/-- Every endpoint read off the string is the denoted one exactly when it is unambiguous. -/
theorem forall_hostPort_iff (authority : Bytes) :
    (∀ target, endpointOf authority = some target → HostPort authority target.host target.port) ↔
      Unambiguous authority := by
  constructor
  · intro denoted host spaces sign digits junk cut named isNumeral isPort
    have range := (isPort_iff isNumeral).mp isPort
    have read := endpointOf_eq_some_iff.mpr ⟨host, _, cut, named, range.1, range.2, rfl⟩
    rcases denoted _ read with ⟨text, split, isHost, number, -⟩
    have same := (cutLastColon_eq_some_iff.mp cut).1
    rw [split, List.append_cancel_left_eq, List.cons.injEq] at same
    have decimal := (Rfc9112.number?_eq_some number).2.1
    rw [same.2] at decimal
    exact ⟨isNumeral.bare decimal, isHost⟩
  · intro unambiguous target read
    rcases endpointOf_eq_some_iff.mp read with ⟨host, text, cut, named, positive, bounded, rfl⟩
    rcases exists_numeral_of_portOf positive with
      ⟨spaces, sign, digits, junk, rfl, isNumeral⟩
    have isPort := (isPort_iff isNumeral).mpr ⟨positive, bounded⟩
    rcases unambiguous host spaces sign digits junk cut named isNumeral isPort with
      ⟨⟨rfl, rfl, rfl⟩, isHost⟩
    rcases isPort with ⟨number, isNumber, inRange⟩
    rw [if_neg unsigned_ne_minus] at inRange
    refine ⟨_, (cutLastColon_eq_some_iff.mp cut).1, isHost, ?_, positive, bounded⟩
    simp [isNumber, portOf_of_number? isNumber inRange.2]

theorem isHost_nil : Rfc3986.isHost [] = false := by decide

/-- A string that denotes a host and a port is read as such. -/
theorem endpointOf_of_hostPort {authority host : Bytes} {port : ℕ}
    (denotes : HostPort authority host port) :
    endpointOf authority = some { backendId := [], host, port } := by
  rcases denotes with ⟨digits, split, isHost, number, positive, bounded⟩
  have isPort := portOf_of_number? number bounded
  refine endpointOf_eq_some_iff.mpr ⟨host, digits, ?_, ?_, ?_, ?_, ?_⟩
  · refine cutLastColon_eq_some_iff.mpr ⟨split, fun colonMem => ?_⟩
    exact absurd ((Rfc9112.number?_eq_some number).2.1 COLON colonMem) (by decide)
  · rintro rfl
    simp [isHost_nil] at isHost
  · rwa [isPort]
  · rwa [isPort]
  · rw [isPort]

/-- Of a string with a colon, the host that is read is only a part. -/
theorem not_hostOnly_of_endpointOf {authority : Bytes} {target : BackendEndpoint}
    (read : endpointOf authority = some target) : ¬HostOnly authority target.host target.port := by
  rcases endpointOf_eq_some_iff.mp read with ⟨host, digits, cut, -, -, -, rfl⟩
  rintro ⟨whole, -⟩
  have shorter := congrArg List.length (cutLastColon_eq_some_iff.mp cut).1
  rw [whole] at shorter
  simp at shorter

theorem connectsOnly_handleConnect_iff (head : HttpRequestHead) :
    (handleConnect head).ConnectsOnly (HostPort head.path) ↔ Unambiguous head.path := by
  rw [← forall_hostPort_iff, ← target?_handleConnect]
  constructor
  · exact fun only => only.allowed
  · exact fun allowed => ⟨allowed, refused_handleConnect⟩

theorem connectsOnly_handleForward_iff (head : HttpRequestHead) :
    (handleForward head).ConnectsOnly (fun host port =>
        HostPort head.authority host port ∨ HostOnly head.authority host port) ↔
      (head.scheme = ascii "http" →
        if COLON ∈ head.authority then Unambiguous head.authority
        else Rfc3986.isHost head.authority = true) := by
  by_cases http : head.scheme = ascii "http"
  · have target := target?_handleForward http
    simp only [http, true_imp_iff]
    split_ifs at target ⊢ with colonMem
    · rw [← forall_hostPort_iff]
      constructor
      · intro only endpoint read
        rcases only.allowed endpoint (target.trans read) with denotes | alone
        · exact denotes
        · exact absurd alone (not_hostOnly_of_endpointOf read)
      · intro denoted
        refine ⟨?_, refused_handleForward⟩
        intro endpoint isTarget
        exact .inl (denoted endpoint (target.symm.trans isTarget))
    · constructor
      · intro only
        rcases only.allowed _ target with ⟨digits, split, -⟩ | ⟨-, isHost, -⟩
        · rw [split] at colonMem
          exact absurd (by simp) colonMem
        · exact isHost
      · intro isHost
        refine ⟨?_, refused_handleForward⟩
        intro endpoint isTarget
        rw [target] at isTarget
        obtain rfl := Option.some.inj isTarget
        exact .inr ⟨rfl, isHost, rfl⟩
  · have rejected : handleForward head =
        .reject .badRequest (ascii "https absolute-form requires CONNECT\n") := if_pos http
    simp only [http, false_imp_iff, iff_true]
    refine ⟨?_, refused_handleForward⟩
    intro endpoint isTarget
    simp [rejected, Dispatch.target?] at isTarget

/--
For every authority string, both functions connect only where the string says, and
answer 400 otherwise, exactly when it is unambiguous, or a host where there is no
port.  What denotes a host and a port is always connected to there, and on a string
with a colon the two functions agree.
-/
theorem authority_targets (head : HttpRequestHead) :
    ((handleConnect head).ConnectsOnly (HostPort head.path) ↔ Unambiguous head.path) ∧
    ((handleForward head).ConnectsOnly (fun host port =>
        HostPort head.authority host port ∨ HostOnly head.authority host port) ↔
      (head.scheme = ascii "http" →
        if COLON ∈ head.authority then Unambiguous head.authority
        else Rfc3986.isHost head.authority = true)) ∧
    (∀ host port, HostPort head.path host port →
      (handleConnect head).target? = some { backendId := [], host, port }) ∧
    (head.scheme = ascii "http" → COLON ∈ head.authority →
      (handleForward head).target? =
        (handleConnect { head with path := head.authority }).target?) := by
  refine ⟨connectsOnly_handleConnect_iff head, connectsOnly_handleForward_iff head, ?_, ?_⟩
  · intro host port denotes
    rw [target?_handleConnect]
    exact endpointOf_of_hostPort denotes
  · intro http colonMem
    rw [target?_handleForward http, if_pos colonMem, target?_handleConnect]

/-- Junk behind the port. -/
def junkConnect : HttpRequestHead :=
  { method := ascii "CONNECT", path := ascii "example.com:443abc" }

/-- An IPv6 literal. -/
def literalForward : HttpRequestHead :=
  { scheme := ascii "http", authority := ascii "[::1]", absoluteTarget := true }

/-- Junk behind a port is dropped, and an address literal without a port is cut in two. -/
theorem authority_targets_wrong :
    (handleConnect junkConnect).target? =
        some { backendId := [], host := ascii "example.com", port := 443 } ∧
      ¬(handleConnect junkConnect).ConnectsOnly (HostPort junkConnect.path) ∧
      (handleForward literalForward).target? =
        some { backendId := [], host := ascii "[:", port := 1 } ∧
      ¬(handleForward literalForward).ConnectsOnly (fun host port =>
        HostPort literalForward.authority host port ∨
          HostOnly literalForward.authority host port) := by
  have junkCut : cutLastColon junkConnect.path =
      some (ascii "example.com", [] ++ ([] ++ (ascii "443" ++ ascii "abc"))) := by
    decide
  have literalCut : cutLastColon literalForward.authority =
      some (ascii "[:", [] ++ ([] ++ (ascii "1" ++ ascii "]"))) := by
    decide
  refine ⟨by decide, ?_, by decide, ?_⟩
  · rw [connectsOnly_handleConnect_iff]
    intro unambiguous
    have read := unambiguous _ _ _ _ _ junkCut (by decide)
      ⟨by simp, .inl rfl, by decide, List.all_eq_true.mp (by decide), by rintro _ ⟨⟩; rfl⟩
      ⟨443, by decide, by decide⟩
    exact absurd read.1.2.2 (by decide)
  · rw [connectsOnly_handleForward_iff]
    intro unambiguous
    have only := unambiguous rfl
    rw [if_pos (by decide)] at only
    have read := only _ _ _ _ _ literalCut (by decide)
      ⟨by simp, .inl rfl, by decide, List.all_eq_true.mp (by decide), by rintro _ ⟨⟩; rfl⟩
      ⟨1, by decide, by decide⟩
    exact absurd read.1.2.2 (by decide)

end RelaySession

end ReverseProxy
