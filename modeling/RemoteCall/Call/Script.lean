import RemoteCall.Call.Consumer

/-! Outcomes prepared in advance.

A script stands in for a network where a call is to be rehearsed: it holds, for every
address, what comes of the requests that are sent there, one after another. -/
namespace RemoteCall

/-- What comes of one request, and after how many milliseconds. -/
structure Line where
  delay : Nat := 0
  outcome : Outcome

structure Script where
  /-- Writes the answers of the addresses that have no lines. -/
  serializer : Serializer
  lines : Dict (List Line) := []
  /-- What was sent where, first to last. -/
  sent : List (Request × Instance) := []

namespace Script

/-- The answer of an address that has no lines: itself. -/
def echo (serializer : Serializer) (address : String) : Line :=
  { outcome := .ok (.withData serializer .text address) }

/-- Takes the next line of an address. The last one stays. -/
def next (s : Script) (address : String) : Line × Script :=
  match s.lines.find? address with
  | some [last] => (last, s)
  | some (line :: rest) => (line, { s with lines := s.lines.insert address rest })
  | _ => (echo s.serializer address, s)

def send : Sender Script := fun request target s =>
  let (line, s) := { s with sent := s.sent ++ [(request, target)] }.next target.address
  ((line.outcome, line.delay), s)

end Script
end RemoteCall
