import ReverseProxy.Codec.H1.Fields

/-!
# The keep-alive decision

RFC 9112 §9.3 decides persistence on the options of all `Connection` fields, a
comma-separated list compared without case.  `computeKeepAlive` looks for the texts
`close` and `keep-alive` anywhere in the first field, in lower case only, and takes
every version that does not begin with `HTTP/1.0` for a persistent one.
-/

namespace Rfc9112

open Text

/-- The connection options of all `Connection` fields. -/
def connectionOptions (fields : List Field) : List Bytes :=
  (elements (valuesOf (ascii "connection") fields)).map lower

/-- The minor version of `HTTP/1.x`. -/
def minorVersion? (version : Bytes) : Option UInt8 :=
  match version.dropPrefix? (ascii "HTTP/1.") with
  | some [minor] => if isDigit minor then some minor else none
  | _ => none

/-- Whether a connection persists behind a message of this version (§9.3). -/
def persists (fields : List Field) (version : Bytes) : Bool :=
  if (connectionOptions fields).contains (ascii "close") then false
  else
    (minorVersion? version).any fun minor =>
      minor ≠ 48 || (connectionOptions fields).contains (ascii "keep-alive")

end Rfc9112

namespace ReverseProxy

open Text

namespace H1Codec

/-- The first `Connection` field holds `close`. -/
def MentionsClose (headers : HeaderMap) : Prop :=
  Mentions (ascii "connection") (ascii "close") headers

/-- It holds `keep-alive`. -/
def MentionsKeepAlive (headers : HeaderMap) : Prop :=
  Mentions (ascii "connection") (ascii "keep-alive") headers

theorem connectionSays_iff (token : Bytes) (headers : HeaderMap) :
    connectionSays token headers = true ↔ Mentions (ascii "connection") token headers := by
  rw [mentions_iff (by decide), connectionSays]
  cases headers.get (ascii "connection") with
  | none => simp
  | some value => simp [contains_iff]

theorem versionKeepsAlive_iff (version : Bytes) :
    versionKeepsAlive version = true ↔ ¬ascii "HTTP/1.0" <+: version := by
  simp [versionKeepsAlive, ← List.isPrefixOf_iff_prefix]

theorem computeKeepAlive_iff (headers : HeaderMap) (version : Bytes) :
    computeKeepAlive headers version = true ↔
      ¬MentionsClose headers ∧
        (MentionsKeepAlive headers ∨ ¬ascii "HTTP/1.0" <+: version) := by
  rw [MentionsClose, MentionsKeepAlive, ← connectionSays_iff, ← connectionSays_iff,
    ← versionKeepsAlive_iff]
  unfold computeKeepAlive headerSaysClose headerSaysKeepAlive
  split_ifs with close keep
  · simp [close]
  · simp [close, keep]
  · simp [close, keep]

/-- A `HTTP/1.x` version of a minor number other than 0 does not begin like `HTTP/1.0`. -/
theorem minorVersion?_eq_some {version : Bytes} {minor : UInt8}
    (numbered : Rfc9112.minorVersion? version = some minor) :
    ascii "HTTP/1.0" <+: version ↔ minor = 48 := by
  unfold Rfc9112.minorVersion? at numbered
  split at numbered
  · rename_i digit taken
    split_ifs at numbered
    obtain rfl : digit = minor := Option.some.inj numbered
    rcases List.dropPrefix?_eq_some_iff.mp taken with ⟨start, split, begins⟩
    rw [beq_iff_eq] at begins
    subst begins
    have oldest : ascii "HTTP/1.0" = ascii "HTTP/1." ++ [48] := by decide
    rw [split, oldest, List.prefix_append_right_inj, List.singleton_prefix_cons_iff]
    exact eq_comm
  · simp at numbered

/--
The cases in which the texts of the first field decide as the options of all fields
do: `close` is found where it is an option and not where it is not, unless the
decision is the same without it, and likewise `keep-alive` for HTTP/1.0.
-/
structure ReadsAlike (headers : HeaderMap) (version : Bytes) : Prop where
  closed : ascii "close" ∈ Rfc9112.connectionOptions headers.entries →
    MentionsClose headers ∨
      ¬MentionsKeepAlive headers ∧ ascii "HTTP/1.0" <+: version
  persistent : ascii "close" ∉ Rfc9112.connectionOptions headers.entries →
    ∀ minor, Rfc9112.minorVersion? version = some minor → minor ≠ 48 →
      ¬MentionsClose headers
  kept : ascii "close" ∉ Rfc9112.connectionOptions headers.entries →
    Rfc9112.minorVersion? version = some 48 →
      (¬MentionsClose headers ∧ MentionsKeepAlive headers ↔
        ascii "keep-alive" ∈ Rfc9112.connectionOptions headers.entries)
  otherVersion : ascii "close" ∉ Rfc9112.connectionOptions headers.entries →
    Rfc9112.minorVersion? version = none →
      MentionsClose headers ∨
        ¬MentionsKeepAlive headers ∧ ascii "HTTP/1.0" <+: version

theorem computeKeepAlive_eq_false_iff (headers : HeaderMap) (version : Bytes) :
    computeKeepAlive headers version = false ↔
      MentionsClose headers ∨
        ¬MentionsKeepAlive headers ∧ ascii "HTTP/1.0" <+: version := by
  rw [← Bool.not_eq_true, computeKeepAlive_iff, not_and_or, not_not, not_or, not_not]

section ReadsAlike

variable {headers : HeaderMap} {version : Bytes}

theorem readsAlike_iff_of_close
    (close : ascii "close" ∈ Rfc9112.connectionOptions headers.entries) :
    ReadsAlike headers version ↔
      MentionsClose headers ∨ ¬MentionsKeepAlive headers ∧ ascii "HTTP/1.0" <+: version := by
  refine ⟨fun alike => alike.closed close, ?_⟩
  intro said
  exact ⟨fun _ => said, fun noClose => absurd close noClose, fun noClose => absurd close noClose,
    fun noClose => absurd close noClose⟩

variable (noClose : ascii "close" ∉ Rfc9112.connectionOptions headers.entries)

include noClose

theorem readsAlike_iff_of_otherVersion (other : Rfc9112.minorVersion? version = none) :
    ReadsAlike headers version ↔
      MentionsClose headers ∨ ¬MentionsKeepAlive headers ∧ ascii "HTTP/1.0" <+: version := by
  refine ⟨fun alike => alike.otherVersion noClose other, ?_⟩
  intro said
  refine ⟨fun close => absurd close noClose, ?_, ?_, fun _ _ => said⟩
  · intro _ minor isMinor
    simp [other] at isMinor
  · intro _ isMinor
    simp [other] at isMinor

theorem readsAlike_iff_of_oldest (oldest : Rfc9112.minorVersion? version = some 48) :
    ReadsAlike headers version ↔
      (¬MentionsClose headers ∧ MentionsKeepAlive headers ↔
        ascii "keep-alive" ∈ Rfc9112.connectionOptions headers.entries) := by
  refine ⟨fun alike => alike.kept noClose oldest, ?_⟩
  intro same
  refine ⟨fun close => absurd close noClose, ?_, fun _ _ => same, ?_⟩
  · intro _ minor isMinor recent
    rw [oldest] at isMinor
    exact absurd (Option.some.inj isMinor).symm recent
  · intro _ isMinor
    simp [oldest] at isMinor

theorem readsAlike_iff_of_recent {minor : UInt8}
    (numbered : Rfc9112.minorVersion? version = some minor) (recent : minor ≠ 48) :
    ReadsAlike headers version ↔ ¬MentionsClose headers := by
  refine ⟨fun alike => alike.persistent noClose minor numbered recent, ?_⟩
  intro silent
  refine ⟨fun close => absurd close noClose, fun _ _ _ _ => silent, ?_, ?_⟩
  · intro _ isMinor
    rw [numbered] at isMinor
    exact absurd (Option.some.inj isMinor) recent
  · intro _ isMinor
    simp [numbered] at isMinor

end ReadsAlike

/-- For every header list and version, the decision follows RFC 9112 exactly in these cases. -/
theorem computeKeepAlive_eq_persists_iff (headers : HeaderMap) (version : Bytes) :
    computeKeepAlive headers version = Rfc9112.persists headers.entries version ↔
      ReadsAlike headers version := by
  by_cases close : ascii "close" ∈ Rfc9112.connectionOptions headers.entries
  · have rule : Rfc9112.persists headers.entries version = false := by
      rw [Rfc9112.persists, if_pos (List.contains_iff_mem.mpr close)]
    rw [rule, computeKeepAlive_eq_false_iff, readsAlike_iff_of_close close]
  have noClose : ¬(Rfc9112.connectionOptions headers.entries).contains (ascii "close") = true :=
    fun isClose => close (List.contains_iff_mem.mp isClose)
  cases numbered : Rfc9112.minorVersion? version with
  | none =>
    have rule : Rfc9112.persists headers.entries version = false := by
      rw [Rfc9112.persists, if_neg noClose, numbered, Option.any_none]
    rw [rule, computeKeepAlive_eq_false_iff, readsAlike_iff_of_otherVersion close numbered]
  | some minor =>
    have rule : Rfc9112.persists headers.entries version =
        (minor ≠ 48 ||
          (Rfc9112.connectionOptions headers.entries).contains (ascii "keep-alive")) := by
      rw [Rfc9112.persists, if_neg noClose, numbered, Option.any_some]
    have oldest := minorVersion?_eq_some numbered
    rw [rule, Bool.eq_iff_iff, computeKeepAlive_iff, oldest]
    by_cases zero : minor = 48
    · subst zero
      rw [readsAlike_iff_of_oldest close numbered]
      simp
    · rw [readsAlike_iff_of_recent close numbered zero]
      simp [zero]

/-- An option in upper case. -/
def closeHeaders : HeaderMap := ⟨[(ascii "Connection", ascii "Close")]⟩

theorem closeHeaders_kept_alive :
    computeKeepAlive closeHeaders (ascii "HTTP/1.1") = true ∧
      Rfc9112.persists closeHeaders.entries (ascii "HTTP/1.1") = false := by
  decide

end H1Codec

end ReverseProxy
