import ReverseProxy.Http1.Framing

/-!
# Request targets and hosts

The parts of RFC 3986 that a request-target is made of: the scheme (§3.1), the host
(§3.2.2) with its address literals, and the absolute form of a target
(RFC 9112 §3.2.2).
-/

namespace Rfc3986

open Text

/-- `?`. -/
def QUESTION : UInt8 := 63

/-! ## Scheme and absolute form -/

/-- `ALPHA`. -/
def isAlpha (byte : UInt8) : Bool :=
  (65 ≤ byte && byte ≤ 90) || (97 ≤ byte && byte ≤ 122)

/-- `scheme = ALPHA *( ALPHA / DIGIT / "+" / "-" / "." )`. -/
def isScheme : Bytes → Bool
  | [] => false
  | first :: rest =>
    isAlpha first && rest.all fun byte => isAlpha byte || isDigit byte || byte ∈ ascii "+-."

/--
`target` is `scheme "://" authority`, followed by an optional path and an optional
query, both of which are in `rest`.
-/
structure AbsoluteForm (target scheme authority rest : Bytes) : Prop where
  parts : target = scheme ++ ascii "://" ++ authority ++ rest
  scheme : isScheme scheme = true
  authority : SLASH ∉ authority ∧ QUESTION ∉ authority
  rest : ∀ byte ∈ rest.head?, byte = SLASH ∨ byte = QUESTION

/-- The origin form of what follows the authority, an empty path being `/`. -/
def originForm (rest : Bytes) : Bytes :=
  if rest.head? = some SLASH then rest else SLASH :: rest

theorem isAlpha_of_isScheme {first : UInt8} {rest : Bytes}
    (isScheme : isScheme (first :: rest) = true) : isAlpha first = true := by
  simp only [Rfc3986.isScheme, Bool.and_eq_true] at isScheme
  exact isScheme.1

theorem colon_not_mem_of_isScheme {scheme : Bytes} (isScheme : isScheme scheme = true) :
    COLON ∉ scheme := by
  have letter : ∀ byte, isAlpha byte = true → byte ≠ COLON := forall_byte (by decide +kernel)
  have inside : ∀ byte, (isAlpha byte || isDigit byte || decide (byte ∈ ascii "+-.")) = true →
      byte ≠ COLON := forall_byte (by decide +kernel)
  cases scheme with
  | nil => simp
  | cons first rest =>
    simp only [Rfc3986.isScheme, Bool.and_eq_true, List.all_eq_true] at isScheme
    rw [List.mem_cons, not_or]
    refine ⟨(letter first isScheme.1).symm, ?_⟩
    intro colonMem
    exact inside COLON (isScheme.2 COLON colonMem) rfl

/-! ## Hosts -/

/-- `HEXDIG`. -/
def isHexDigit (byte : UInt8) : Bool :=
  (digitValue 16 byte).isSome

/-- `unreserved`. -/
def isUnreserved (byte : UInt8) : Bool :=
  isAlpha byte || isDigit byte || byte ∈ ascii "-._~"

/-- `sub-delims`. -/
def isSubDelim (byte : UInt8) : Bool :=
  byte ∈ ascii "!$&'()*+,;="

/-- `reg-name = *( unreserved / pct-encoded / sub-delims )`. -/
def isRegName : Bytes → Bool
  | [] => true
  | 37 :: high :: low :: rest => isHexDigit high && isHexDigit low && isRegName rest
  | byte :: rest => (isUnreserved byte || isSubDelim byte) && isRegName rest

/-- `dec-octet`: a number up to 255 without leading zeros. -/
def isDecOctet (text : Bytes) : Bool :=
  match Rfc9112.number? text with
  | some value => value ≤ 255 && text = decimal value
  | none => false

/-- `IPv4address`. -/
def isIpv4 (text : Bytes) : Bool :=
  let octets := text.splitOn 46
  octets.length = 4 && octets.all isDecOctet

/-- `h16 = 1*4HEXDIG`. -/
def isH16 (text : Bytes) : Bool :=
  1 ≤ text.length && text.length ≤ 4 && text.all isHexDigit

/-- The number of groups between colons. -/
def groups? (text : Bytes) : Option ℕ :=
  if text = [] then some 0
  else if (text.splitOn COLON).all isH16 then some (text.splitOn COLON).length
  else none

/-- The same at the end of an address, where the last two groups may be an IPv4 address. -/
def lastGroups? (text : Bytes) : Option ℕ :=
  if text = [] then some 0
  else
    let groups := text.splitOn COLON
    match groups.getLast? with
    | none => none
    | some last =>
      if !groups.dropLast.all isH16 then none
      else if isH16 last then some groups.length
      else if isIpv4 last then some (groups.length + 1)
      else none

/-- `IPv6address`: eight groups, or fewer with one `::` for at least one missing group. -/
def isIpv6 (text : Bytes) : Bool :=
  match text.dropInfix? (ascii "::") with
  | none => lastGroups? text = some 8
  | some (left, right) =>
    match groups? left, lastGroups? right with
    | some before, some after => before + after ≤ 7
    | _, _ => false

/-- The text between the brackets of an address literal. -/
def bracketed? (host : Bytes) : Option Bytes :=
  if host.head? = some 91 ∧ host.getLast? = some 93 then some host.tail.dropLast else none

/-- A registered name, an IPv4 address or a bracketed IPv6 address. -/
def isHost (host : Bytes) : Bool :=
  (host ≠ [] && isRegName host) || isIpv4 host || (bracketed? host).any isIpv6

example : isHost (ascii "[2001:db8::7]") = true := by decide

example : isHost (ascii "[::ffff:192.0.2.1]") = true := by decide

example : isHost (ascii "user@example.com") = false := by decide

end Rfc3986
