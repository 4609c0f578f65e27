import RemoteCall.Call.Process
import RemoteCall.Config

/-! What becomes of a call that failed for good.

It may stay failed, be answered with an empty response or with a default of its method,
or be sent to the other candidates one after another. -/
namespace RemoteCall

/-- A call that failed. -/
structure FailedCall where
  request : Request
  candidates : List Instance
  /-- The instance that it was sent to, if one was selected. -/
  failed : Option Instance := none

/-- A default answer, written, and the name of its type. -/
structure DefaultAnswer where
  data : Bytes
  typeName : String
  deriving DecidableEq, Repr

inductive Tolerance where
  | failFast
  | failSafe
  /-- Defaults by the name of the method. -/
  | failBack (defaults : Dict DefaultAnswer)
  | failOver

namespace Tolerance

def ofKind : ToleranceKind → Tolerance
  | .failFast => failFast
  | .failSafe => failSafe
  | .failBack => failBack []
  | .failOver => failOver

/-- Whether there is a default for a method. -/
def hasDefault (t : Tolerance) (method : String) : Bool :=
  match t with
  | failBack defaults => defaults.contains method
  | _ => false

def defaultResponse (defaults : Dict DefaultAnswer) (method : String) : Response :=
  match defaults.find? method with
  | some d => .ofEncoded d.data d.typeName
  | none => .empty ""

def overMessage : String := "fail-over succeeded"

def exhaustedMessage : String := "fail-over exhausted every candidate"

/-- Whether a candidate has the address that failed already. -/
def alreadyFailed (failed : Option Instance) (i : Instance) : Bool :=
  failed.map Instance.address = some i.address

/-- Tries the candidates in order, with `last` as the latest error. -/
def tryOthers (request : Request) (failed : Option Instance) (last : CallError) :
    List Instance → Process Outcome
  | [] => .done (.ok (.failure exhaustedMessage last.message))
  | i :: rest =>
    if alreadyFailed failed i then tryOthers request failed last rest
    else .send request i fun
      | .ok response => .done (.ok { response with message := overMessage })
      | .error e => tryOthers request failed e rest

def apply (t : Tolerance) (call : FailedCall) (e : CallError) : Process Outcome :=
  match t with
  | failFast => .done (.error e)
  | failSafe => .done (.ok (.empty s!"fail-safe: {e.message}"))
  | failBack defaults =>
    .done (.ok { defaultResponse defaults call.request.methodName with
      message := s!"fail-back: {e.message}" })
  | failOver => tryOthers call.request call.failed e call.candidates

end Tolerance
end RemoteCall
