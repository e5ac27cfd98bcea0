import ReverseProxy.Codec.HttpMessage

/-!
# Where a request goes

The decisions that `RelaySession` takes on a parsed request head before it opens a
backend connection: a tunnel for CONNECT, a direct connection for an absolute-form
target, a routed backend otherwise, or an error response
(`proxy/relay_session.cpp`, `proxy/router.cpp`).
-/

namespace ReverseProxy

open Text

/-- `TransportProtocol`. -/
inductive TransportProtocol where
  | TCP
  | QUIC
  deriving DecidableEq, Repr

/-- `BackendEndpoint`. -/
structure BackendEndpoint where
  backendId : Bytes
  host : Bytes
  port : ℕ
  protocol : TransportProtocol := .TCP
  deriving DecidableEq, Repr

namespace Router

/-- A rule of the router. -/
structure Rule where
  hostMatch : Bytes
  backendId : Bytes
  deriving DecidableEq, Repr

/-- The backend of the first rule for the pattern. -/
def backendFor (rules : List Rule) (pattern : Bytes) : Option Bytes :=
  (rules.find? fun rule => rule.hostMatch = pattern).map Rule.backendId

/-- `Router::route`: an exact match first, then the wildcard; empty when there is none. -/
def route (rules : List Rule) (head : HttpRequestHead) : Bytes :=
  let host := (head.headers.get (ascii "host")).getD []
  match backendFor rules host with
  | some backendId => backendId
  | none => (backendFor rules (ascii "*")).getD []

end Router

namespace RelaySession

/-- What becomes of a request. -/
inductive Dispatch where
  /-- A raw tunnel to the target of a CONNECT. -/
  | tunnel (target : BackendEndpoint)
  /-- Forwarded on a fresh connection to the target. -/
  | direct (target : BackendEndpoint) (head : HttpRequestHead)
  /-- Forwarded on a connection that the pool picks for the backend. -/
  | routed (backendId : Bytes) (head : HttpRequestHead)
  | reject (status : HttpStatus) (message : Bytes)
  deriving DecidableEq, Repr

/-- Splits a text at its last colon (`rfind(':')`). -/
def cutLastColon (text : Bytes) : Option (Bytes × Bytes) :=
  (text.reverse.dropInfix? [COLON]).map fun cut => (cut.2.reverse, cut.1.reverse)

/-- The port numeral behind the last colon; `0` when there is no digit. -/
def portOf (text : Bytes) : ℕ :=
  (strtoul 10 text).getD 0

/-- `handle_connect` up to the connection. -/
def handleConnect (head : HttpRequestHead) : Dispatch :=
  match cutLastColon head.path with
  | none => .reject .badRequest (ascii "bad CONNECT target\n")
  | some (host, port) =>
    if host = [] ∨ port = [] then .reject .badRequest (ascii "bad CONNECT target\n")
    else if portOf port = 0 ∨ 65535 < portOf port then
      .reject .badRequest (ascii "bad CONNECT target\n")
    else .tunnel { backendId := [], host, port := portOf port }

/-- The head that `handle_forward` sends: the origin is identified by the URL. -/
def forwardHead (head : HttpRequestHead) : HttpRequestHead :=
  { head with headers := head.headers.set (ascii "host") head.authority }

/-- `handle_forward` up to the connection. -/
def handleForward (head : HttpRequestHead) : Dispatch :=
  if head.scheme ≠ ascii "http" then
    .reject .badRequest (ascii "https absolute-form requires CONNECT\n")
  else
    match cutLastColon head.authority with
    | none => .direct { backendId := [], host := head.authority, port := 80 } (forwardHead head)
    | some (host, port) =>
      if host = [] ∨ portOf port = 0 ∨ 65535 < portOf port then
        .reject .badRequest (ascii "bad target\n")
      else .direct { backendId := [], host, port := portOf port } (forwardHead head)

/-- The branches of `request_phase` on a parsed head. -/
def dispatch (rules : List Router.Rule) (head : HttpRequestHead) : Dispatch :=
  if head.method = ascii "CONNECT" then handleConnect head
  else if head.absoluteTarget then handleForward head
  else if Router.route rules head = [] then
    .reject .serviceUnavailable (ascii "no route for host\n")
  else .routed (Router.route rules head) head

/-- The head that is written to a backend, if the request is forwarded to one. -/
def Dispatch.forwarded : Dispatch → Option HttpRequestHead
  | .direct _ head => some head
  | .routed _ head => some head
  | _ => none

/-- A forwarded head is the parsed one, or the parsed one with its `host` replaced. -/
theorem forwarded_dispatch {rules : List Router.Rule} {parsed head : HttpRequestHead}
    (forwarded : (dispatch rules parsed).forwarded = some head) :
    head = parsed ∨ parsed.absoluteTarget = true ∧ head = forwardHead parsed := by
  unfold dispatch at forwarded
  split at forwarded
  · unfold handleConnect at forwarded
    split at forwarded
    · simp [Dispatch.forwarded] at forwarded
    · split_ifs at forwarded <;> simp [Dispatch.forwarded] at forwarded
  split at forwarded
  · rename_i absolute
    unfold handleForward at forwarded
    split at forwarded
    · simp [Dispatch.forwarded] at forwarded
    split at forwarded
    · simp only [Dispatch.forwarded, Option.some.injEq] at forwarded
      exact .inr ⟨absolute, forwarded.symm⟩
    · split at forwarded
      · simp [Dispatch.forwarded] at forwarded
      · simp only [Dispatch.forwarded, Option.some.injEq] at forwarded
        exact .inr ⟨absolute, forwarded.symm⟩
  · split at forwarded
    · simp [Dispatch.forwarded] at forwarded
    · simp only [Dispatch.forwarded, Option.some.injEq] at forwarded
      exact .inl forwarded.symm

end RelaySession

end ReverseProxy
