import RemoteCall.Call.Together
import RemoteCall.Text.Quoted
import RemoteCall.Transport.Exchange
import RemoteCall.User

/-! A small tour: a provider of the sample service and a consumer that calls it.

Provider and consumer have a client each of one registry, and the consumer finds the
provider there. Both methods are called at the same time. -/
namespace RemoteCall.Demo

/-- What the tour shows. -/
structure Report where
  lines : List String := []
  /-- Why it ended early, if it did. -/
  failure : Option String := none
  deriving DecidableEq, Repr

/-- The status that the program ends with. -/
def Report.status (r : Report) : Nat := if r.failure.isSome then 1 else 0

/-! ### The provider -/

def provider : Instance := { name := UserService.serviceName, host := "127.0.0.1", port := 8080 }

/-- A network with the provider's server, or none at all. -/
def network (reachable : Bool) (config : CallConfig) : Transport.Network where
  reachable := reachable
  listeners := [(provider.address, {
    endpoint := (Server.Endpoint.registerAll {} UserService.methods).2
    maxBody := config.transport.maxBody.toNat })]

/-- The registry once both have joined it. -/
def registry (config : CallConfig) : Except RegistryError Registry.World :=
  let actions : List Registry.World.Action := [
    .init "provider" config.registry, .register "provider" provider, .heartBeat "provider",
    .init "consumer" config.registry]
  actions.foldlM (fun w a =>
    let (r, w) := w.perform a
    r.map fun _ => w.settle) ({} : Registry.World)

/-! ### The consumer -/

def consumer (reachable : Bool) (config : CallConfig) (w : Registry.World) :
    Consumer Transport.Exchange where
  world := w
  balancer := .ofKind 0 config.balancer
  transport := .new (network reachable config) config.transport

def pipeline (config : CallConfig) : Pipeline where
  serializer := config.transport.serializer
  retry := .ofKind config.retry
  tolerance := .ofKind config.tolerance

def userText : Option User → String
  | some u => "Some(User \x7b name: " ++ Text.quoted u.name ++ " \x7d)"
  | none => "None"

/-- The calls, each with the line that it shows. -/
def calls (p : Pipeline) : List (Process (Except CallError String)) :=
  [(UserService.getUser p ⟨"ada"⟩).map fun r => r.map fun u => "getUser() returned " ++ userText u,
   (UserService.getNumber p).map fun r => r.map fun n =>
     "getNumber() returned " ++ toString n.toInt]

/-- Shows the lines up to the first failure. -/
def report : List (Option (Except CallError String)) → Report
  | [] => {}
  | some (.ok line) :: rest =>
    let r := report rest
    { r with lines := line :: r.lines }
  | some (.error e) :: _ => { failure := some e.message }
  | none :: _ => { failure := some "a call did not come to an end" }

/-- More steps than the calls take. -/
def stepLimit : Nat := 10000

def runWith (reachable : Bool) (config : CallConfig) : Report :=
  match registry config with
  | .error e => { failure := some e.message }
  | .ok w =>
    let together := Together.ofProcesses (calls (pipeline config)) (consumer reachable config w)
    report (together.takeSteps (Consumer.handler Transport.Exchange.send) stepLimit).results

/-- The tour with the settings of a text, if there is one. -/
def run (reachable : Bool) (settings : Option String) : Report :=
  match settings with
  | none => runWith reachable .default
  | some text =>
    let b := Utf8.encode text
    match Json.decode CallConfig.shape b with
    | .ok config => runWith reachable config
    | .error fault => { failure := some (fault.report b) }

end RemoteCall.Demo
