import RemoteCall.Frame.Stream
import RemoteCall.Value.Encoding

/-! Settings, which are read from JSON objects. Every setting has a default, and an
object need only name those that differ. Times are in milliseconds. -/
namespace RemoteCall

/-! ### Choices -/

def Serializer.shape : Shape Serializer :=
  .named [.native, .json, .compact] Serializer.name (fun s => by cases s <;> decide)

def Layout.settingName : Layout → String
  | legacy => "legacy"
  | packed => "packed"

def Layout.shape : Shape Layout :=
  .named [.legacy, .packed] Layout.settingName (fun l => by cases l <;> decide)

/-- How one of several instances is picked. -/
inductive BalancerKind where
  | roundRobin
  | random
  | leastActive
  | consistentHash
  deriving DecidableEq, Repr, Inhabited

def BalancerKind.name : BalancerKind → String
  | roundRobin => "round_robin"
  | random => "random"
  | leastActive => "least_active"
  | consistentHash => "consistent_hash"

def BalancerKind.shape : Shape BalancerKind :=
  .named [.roundRobin, .random, .leastActive, .consistentHash] BalancerKind.name
    (fun k => by cases k <;> decide)

/-- Whether a failed call is tried again. -/
inductive RetryKind where
  | no
  | fixedInterval
  deriving DecidableEq, Repr, Inhabited

def RetryKind.name : RetryKind → String
  | no => "no"
  | fixedInterval => "fixed_interval"

def RetryKind.shape : Shape RetryKind :=
  .named [.no, .fixedInterval] RetryKind.name (fun k => by cases k <;> decide)

/-- What becomes of a call that has failed for good. -/
inductive ToleranceKind where
  | failFast
  | failSafe
  | failBack
  | failOver
  deriving DecidableEq, Repr, Inhabited

def ToleranceKind.name : ToleranceKind → String
  | failFast => "fail_fast"
  | failSafe => "fail_safe"
  | failBack => "fail_back"
  | failOver => "fail_over"

def ToleranceKind.shape : Shape ToleranceKind :=
  .named [.failFast, .failSafe, .failBack, .failOver] ToleranceKind.name
    (fun k => by cases k <;> decide)

/-! ### Connections -/

/-- Limits on the connections to one address. -/
structure PoolConfig where
  /-- Connections opened when the address is first used. -/
  minSize : UInt64 := 1
  /-- Most connections at a time. -/
  maxSize : UInt64 := 20
  /-- How long a call may wait for a connection. -/
  acquireTimeout : UInt64 := 5000
  deriving DecidableEq, Repr, Inhabited

namespace PoolConfig

def default : PoolConfig := {}

def shape : Shape PoolConfig :=
  .via (.record "PoolConfig" ""
      (.defaulted "min_size" .usize default.minSize
        <| .defaulted "max_size" .usize default.maxSize
        <| .defaulted "acquire_timeout_ms" .u64 default.acquireTimeout .nil))
    (fun c => (c.minSize, c.maxSize, c.acquireTimeout, ()))
    (fun (minSize, maxSize, acquireTimeout, ()) => ⟨minSize, maxSize, acquireTimeout⟩)
    (fun _ => rfl)

end PoolConfig

structure TransportConfig where
  serializer : Serializer := .json
  layout : Layout := .packed
  pool : PoolConfig := {}
  connectTimeout : UInt64 := 5000
  responseTimeout : UInt64 := 10000
  /-- Longest body that is received. -/
  maxBody : UInt64 := UInt64.ofNat defaultMaxBody
  deriving DecidableEq, Repr, Inhabited

namespace TransportConfig

def default : TransportConfig := {}

def shape : Shape TransportConfig :=
  .via (.record "TransportConfig" ""
      (.defaulted "serializer" Serializer.shape default.serializer
        <| .defaulted "layout" Layout.shape default.layout
        <| .defaulted "pool" PoolConfig.shape default.pool
        <| .defaulted "connect_timeout_ms" .u64 default.connectTimeout
        <| .defaulted "response_timeout_ms" .u64 default.responseTimeout
        <| .defaulted "max_body_length" .usize default.maxBody .nil))
    (fun c => (c.serializer, c.layout, c.pool, c.connectTimeout, c.responseTimeout, c.maxBody, ()))
    (fun (serializer, layout, pool, connectTimeout, responseTimeout, maxBody, ()) =>
      ⟨serializer, layout, pool, connectTimeout, responseTimeout, maxBody⟩)
    (fun _ => rfl)

end TransportConfig

/-! ### The registry -/

structure RegistryConfig where
  /-- The kind of store behind the registry. -/
  registry : String := "memory"
  address : String := "localhost:6379"
  timeout : UInt64 := 10000
  /-- How long a registration lives without renewal. -/
  ttl : UInt64 := 30000
  heartbeatInterval : UInt64 := 10000
  /-- How often expired registrations are looked for. -/
  sweepInterval : UInt64 := 1000
  deriving DecidableEq, Repr, Inhabited

namespace RegistryConfig

def default : RegistryConfig := {}

def shape : Shape RegistryConfig :=
  .via (.record "RegistryConfig" ""
      (.defaulted "registry" .text default.registry
        <| .defaulted "address" .text default.address
        <| .defaulted "timeout_ms" .u64 default.timeout
        <| .defaulted "ttl_ms" .u64 default.ttl
        <| .defaulted "heartbeat_interval_ms" .u64 default.heartbeatInterval
        <| .defaulted "sweep_interval_ms" .u64 default.sweepInterval .nil))
    (fun c => (c.registry, c.address, c.timeout, c.ttl, c.heartbeatInterval, c.sweepInterval, ()))
    (fun (registry, address, timeout, ttl, heartbeatInterval, sweepInterval, ()) =>
      ⟨registry, address, timeout, ttl, heartbeatInterval, sweepInterval⟩)
    (fun _ => rfl)

end RegistryConfig

/-! ### Everything -/

structure CallConfig where
  name : String := "wirecall"
  version : String := "1.0"
  serverHost : String := "localhost"
  serverPort : UInt16 := 8080
  balancer : BalancerKind := .roundRobin
  retry : RetryKind := .no
  tolerance : ToleranceKind := .failFast
  transport : TransportConfig := {}
  registry : RegistryConfig := {}
  deriving DecidableEq, Repr, Inhabited

namespace CallConfig

def default : CallConfig := {}

def shape : Shape CallConfig :=
  .via (.record "RpcConfig" ""
      (.defaulted "name" .text default.name
        <| .defaulted "version" .text default.version
        <| .defaulted "server_host" .text default.serverHost
        <| .defaulted "server_port" .u16 default.serverPort
        <| .defaulted "load_balancer" BalancerKind.shape default.balancer
        <| .defaulted "retry_strategy" RetryKind.shape default.retry
        <| .defaulted "tolerant_strategy" ToleranceKind.shape default.tolerance
        <| .defaulted "transport" TransportConfig.shape default.transport
        <| .defaulted "registry" RegistryConfig.shape default.registry .nil))
    (fun c => (c.name, c.version, c.serverHost, c.serverPort, c.balancer, c.retry, c.tolerance,
      c.transport, c.registry, ()))
    (fun (name, version, serverHost, serverPort, balancer, retry, tolerance, transport, registry,
        ()) =>
      ⟨name, version, serverHost, serverPort, balancer, retry, tolerance, transport, registry⟩)
    (fun _ => rfl)

end CallConfig
end RemoteCall
