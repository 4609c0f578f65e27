import RemoteCall.Value.Encoding

/-! Responses: the written result of a method, or word of a failure. -/
namespace RemoteCall

structure Response where
  /-- The result, absent when the method gives none. -/
  data : Option Bytes := none
  /-- The type of the result, by name. -/
  dataType : Option String := none
  message : String := ""
  /-- What went wrong, if anything did. -/
  fault : Option String := none
  deriving DecidableEq, Repr, Inhabited

namespace Response

def shape : Shape Response :=
  .via (.record "RpcResponse" "wirecall::rpc::rpc_request_response::RpcResponse"
      (.needed "data" (.option .bytes) <| .needed "data_type" (.option .text)
        <| .needed "message" .text <| .needed "exception" (.option .text) .nil))
    (fun r => (r.data, r.dataType, r.message, r.fault, ()))
    (fun (data, dataType, message, fault, ()) => ⟨data, dataType, message, fault⟩)
    (fun _ => rfl)

def empty (message : String) : Response := { message := message }

def ofEncoded (data : Bytes) (typeName : String) : Response :=
  { data := some data, dataType := some typeName, message := "ok" }

def withData {α : Type} (serializer : Serializer) (s : Shape α) (x : α) : Response :=
  ofEncoded (serializer.encode s x) s.typeName

def failure (message fault : String) : Response := { message := message, fault := some fault }

def isFailure (r : Response) : Bool := r.fault.isSome

/-- Reads the result, if there is one. -/
def decodeData {α : Type} (r : Response) (serializer : Serializer) (s : Shape α) :
    Except ValueError (Option α) :=
  match r.data with
  | none => .ok none
  | some b => (serializer.decode s b).map some

end Response
end RemoteCall
