import RemoteCall.Server.Connection

/-! A network of servers, each listening at an address. -/
namespace RemoteCall.Transport

/-- Why a connection cannot be made. -/
inductive LinkFault where
  /-- Nobody listens at the address. -/
  | refused
  /-- There is no way to the address. -/
  | unreachable
  deriving DecidableEq, Repr

namespace LinkFault

/-- The number by which systems know the fault. -/
def code : LinkFault → Nat
  | refused => 111
  | unreachable => 101

def name : LinkFault → String
  | refused => "ConnectionRefused"
  | unreachable => "NetworkUnreachable"

def text : LinkFault → String
  | refused => "Connection refused"
  | unreachable => "Network is unreachable"

def reason (f : LinkFault) : String := s!"{f.text} (os error {f.code})"

/-- All about the fault in one line. -/
def describe (f : LinkFault) : String :=
  "Os \x7b code: " ++ toString f.code ++ ", kind: " ++ f.name ++ ", message: \"" ++ f.text
    ++ "\" \x7d"

end LinkFault

/-- A server that waits for connections. -/
structure Listener where
  endpoint : Server.Endpoint := {}
  /-- Longest body that is received. -/
  maxBody : Nat := defaultMaxBody

/-- The frames that a client gets back for all that it sends on one connection. -/
def Listener.serve (l : Listener) (chunks : List Bytes) : List Bytes :=
  let c := chunks.foldl Server.Connection.receive (.new l.maxBody)
  (c.finishAll l.endpoint).replies

structure Network where
  /-- Whether there is a way to any address at all. -/
  reachable : Bool := true
  /-- The servers by their addresses. -/
  listeners : Dict Listener := []

/-- The server at an address. -/
def Network.connect (n : Network) (address : String) : Except LinkFault Listener :=
  if n.reachable then
    match n.listeners.find? address with
    | some listener => .ok listener
    | none => .error .refused
  else .error .unreachable

end RemoteCall.Transport
