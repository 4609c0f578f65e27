import RemoteCall.Message.Request

/-! Instances of services, as they are registered and discovered. -/
namespace RemoteCall

structure Instance where
  name : String
  version : String := defaultServiceVersion
  host : String
  port : UInt16
  group : String := "default"
  deriving DecidableEq, Repr, Inhabited

namespace Instance

def shape : Shape Instance :=
  .via (.record "ServiceMetaInfo" "wirecall::rpc::service_meta_info::ServiceMetaInfo"
      (.needed "service_name" .text <| .defaulted "service_version" .text defaultServiceVersion
        <| .needed "service_host" .text <| .needed "service_port" .u16
        <| .defaulted "service_group" .text "default" .nil))
    (fun i => (i.name, i.version, i.host, i.port, i.group, ()))
    (fun (name, version, host, port, group, ()) => ⟨name, version, host, port, group⟩)
    (fun _ => rfl)

/-- The service in its version, under which all its instances are found. -/
def serviceKey (i : Instance) : String := s!"{i.name}:{i.version}"

def address (i : Instance) : String := s!"{i.host}:{i.port.toNat}"

/-- The service key and the address. -/
def nodeKey (i : Instance) : String := s!"{i.serviceKey}/{i.address}"

end Instance
end RemoteCall
