import RemoteCall.Balance.Balancer
import RemoteCall.Call.Script
import RemoteCall.Call.Flights
import RemoteCall.Call.Callers
import RemoteCall.Config
import RemoteCall.Message.Codec
import RemoteCall.Registry.Traffic
import RemoteCall.RequestIds
import RemoteCall.Server.Connection
import RemoteCall.Transport.History
import RemoteCall.Demo
import RemoteCall.Main
import RemoteCall.Proofs.Balance.InFlight
import RemoteCall.Proofs.Call.Callers
import RemoteCall.Proofs.Frame.Chunking
import RemoteCall.Proofs.Frame.Resynchronisation
import RemoteCall.Proofs.Json.RoundTrip
import RemoteCall.Proofs.Message.Delivery
import RemoteCall.Proofs.Message.RoundTrip
import RemoteCall.Proofs.Registry.Coherence
import RemoteCall.Proofs.Server.Replies
import RemoteCall.Proofs.Pool.Ceiling
import RemoteCall.Proofs.Transport.Correlation
import RemoteCall.Proofs.Transport.Settlement
import RemoteCall.Proofs.Registry.Leases
import RemoteCall.Proofs.Registry.Staleness
import RemoteCall.Proofs.Server.Answers
import RemoteCall.Proofs.Pool.ShutDown
import RemoteCall.Proofs.Frame.Bijection
import RemoteCall.Proofs.Registry.Tenure
import RemoteCall.Proofs.Registry.Isolation
import RemoteCall.Proofs.Registry.Unnoticed
import RemoteCall.Proofs.Registry.Currency
import RemoteCall.Proofs.Transport.Closings
import RemoteCall.Proofs.Pool.Exhaustion
import RemoteCall.Proofs.Balance.Ring
import RemoteCall.Call.Plan
import RemoteCall.Call.Trace
import RemoteCall.Proofs.Call.Pipeline
import RemoteCall.Proofs.Frame.Retained
import RemoteCall.Proofs.Registry.Removals
import RemoteCall.Proofs.Registry.WatchCalls
import RemoteCall.Proofs.Balance.Outstanding
import RemoteCall.Proofs.Frame.Verdicts
import RemoteCall.Proofs.Registry.Announcements
import RemoteCall.Proofs.Registry.Invalidation
import RemoteCall.Proofs.Call.FailOver
import RemoteCall.Proofs.Call.Repetition
import RemoteCall.Proofs.Registry.Holding
import RemoteCall.Proofs.Balance.RoundRobin
