import RemoteCall.Call.Retry
import RemoteCall.Call.Tolerance

/-! A call from end to end: discover, select, send with repetitions, release, and hand a
lasting failure to the tolerance. -/
namespace RemoteCall

structure Pipeline where
  /-- Writes the arguments and reads the results. -/
  serializer : Serializer
  retry : Retry := .no
  tolerance : Tolerance := .failFast

namespace Pipeline

/-- What the balancer is told about a request. -/
def paramsOf (r : Request) : Dict String := [("method_name", r.methodName)]

/-- The call with any way of repeating and any way of dealing with failure. -/
def invokeWith (retry : Process Outcome → Process Outcome)
    (tolerate : FailedCall → CallError → Process Outcome) (r : Request) : Process Outcome :=
  .discover r.serviceKey fun
    | .error e => .done (.error (.registry e))
    | .ok candidates =>
      .cleanup candidates <| .select (paramsOf r) candidates fun
        | none => .done (.error (.noAvailableInstance r.serviceKey))
        | some i =>
          (retry (.sendTo r i)).bind fun outcome =>
            .release i <|
              match outcome with
              | .ok response => .done (.ok response)
              | .error e => tolerate ⟨r, candidates, some i⟩ e

def invoke (p : Pipeline) (r : Request) : Process Outcome :=
  invokeWith p.retry.run p.tolerance.apply r

/-- The result that a response carries. -/
def resultOf {α : Type} (serializer : Serializer) (s : Shape α) (response : Response) :
    Except CallError (Option α) :=
  match response.fault with
  | some fault => .error (.remote fault)
  | none => (response.decodeData serializer s).mapError .value

/-- The result of a call of which something came. -/
def answerOf {α : Type} (serializer : Serializer) (s : Shape α) :
    Outcome → Except CallError (Option α)
  | .ok response => resultOf serializer s response
  | .error e => .error e

/-- Invokes a method and reads its result, with any way of repeating and any way of dealing with
failure. -/
def callWith {α : Type} (retry : Process Outcome → Process Outcome)
    (tolerate : FailedCall → CallError → Process Outcome) (serializer : Serializer) (s : Shape α)
    (r : Request) : Process (Except CallError (Option α)) :=
  (invokeWith retry tolerate r).map (answerOf serializer s)

def call {α : Type} (p : Pipeline) (s : Shape α) (r : Request) :
    Process (Except CallError (Option α)) :=
  callWith p.retry.run p.tolerance.apply p.serializer s r

end Pipeline
end RemoteCall
