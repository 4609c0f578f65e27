import RemoteCall.Demo

/-! The program: the tour, with the settings in the file that its argument names. -/
namespace RemoteCall.Demo

/-- Shows a report and gives its status. -/
def Report.present (r : Report) : IO UInt32 := do
  for line in r.lines do
    IO.println line
  if let some failure := r.failure then
    IO.eprintln ("Error: " ++ failure)
  return UInt32.ofNat r.status

end RemoteCall.Demo

def main (args : List String) : IO UInt32 := do
  let settings ← match args with
    | path :: _ => (IO.FS.readFile path).map some
    | [] => pure none
  (RemoteCall.Demo.run true settings).present
