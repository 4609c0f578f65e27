import RemoteCall.Value.Encoding

/-! Requests for a method of a service.

A request names the service, its version and the method. Its arguments are written with
the serializer of the call, each under the name of its type. -/
namespace RemoteCall

/-- The version of a service that names none. -/
def defaultServiceVersion : String := "1.0"

structure Request where
  serviceName : String
  methodName : String
  serviceVersion : String := defaultServiceVersion
  /-- The types of the arguments, by name. -/
  parameterTypes : List String := []
  args : List Bytes := []
  deriving DecidableEq, Repr, Inhabited

namespace Request

def shape : Shape Request :=
  .via (.record "RpcRequest" "wirecall::rpc::rpc_request_response::RpcRequest"
      (.needed "service_name" .text <| .needed "method_name" .text
        <| .needed "service_version" .text <| .needed "parameter_types" (.list .text)
        <| .needed "args" (.list .bytes) .nil))
    (fun r => (r.serviceName, r.methodName, r.serviceVersion, r.parameterTypes, r.args, ()))
    (fun (serviceName, methodName, serviceVersion, parameterTypes, args, ()) =>
      ⟨serviceName, methodName, serviceVersion, parameterTypes, args⟩)
    (fun _ => rfl)

/-- What instances of the service are looked up under. -/
def serviceKey (r : Request) : String := s!"{r.serviceName}:{r.serviceVersion}"

/-- One more argument, already written. -/
def withEncodedArg (r : Request) (typeName : String) (b : Bytes) : Request :=
  { r with parameterTypes := r.parameterTypes ++ [typeName], args := r.args ++ [b] }

/-- One more argument. -/
def withArg {α : Type} (r : Request) (serializer : Serializer) (s : Shape α) (x : α) : Request :=
  r.withEncodedArg s.typeName (serializer.encode s x)

/-- Reads the argument at a position. -/
def arg {α : Type} (r : Request) (serializer : Serializer) (s : Shape α) (index : Nat) :
    Except ValueError α :=
  match r.args[index]? with
  | some b => serializer.decode s b
  | none => .error (.deserialize serializer
      (some s!"{r.serviceName}.{r.methodName} has no argument at position {index}"))

end Request
end RemoteCall
