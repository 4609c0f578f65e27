/-! Lengths of time as text. -/
namespace RemoteCall.Duration

/-- Thousandths behind a point, without trailing zeros. -/
def thousandths (n : Nat) : String :=
  let ds := [n / 100 % 10, n / 10 % 10, n % 10]
  let ds := (ds.reverse.dropWhile (· = 0)).reverse
  if ds.isEmpty then "" else "." ++ String.ofList (ds.map Nat.digitChar)

/-- Milliseconds in the largest unit of which there is at least one. -/
def text (ms : Nat) : String :=
  if ms = 0 then "0ns"
  else if ms < 1000 then s!"{ms}ms"
  else toString (ms / 1000) ++ thousandths (ms % 1000) ++ "s"

end RemoteCall.Duration
