import StandaloneDHCP.Lib.ArrayHeap
import StandaloneDHCP.Lib.CacheAside
import StandaloneDHCP.Lib.Counting
import StandaloneDHCP.Lib.ExpiringCache
import StandaloneDHCP.Lib.FisherYates
import StandaloneDHCP.Lib.MapRange
import StandaloneDHCP.Lib.Overlay
import StandaloneDHCP.Lib.Pattern
import StandaloneDHCP.Lib.Runs
import StandaloneDHCP.Lib.Slices
import StandaloneDHCP.Lib.TagLengthValue
import StandaloneDHCP.Overrides.ApplyOverrides
import StandaloneDHCP.Overrides.Convert
import StandaloneDHCP.Overrides.Database
import StandaloneDHCP.Overrides.OverrideCache
import StandaloneDHCP.Pool.DHCPPool
import StandaloneDHCP.Pool.PoolHistory
import StandaloneDHCP.Pool.PoolInvariant
import StandaloneDHCP.Relay.DoWork
import StandaloneDHCP.Relay.ServeRelay
import StandaloneDHCP.Server.Accounting
import StandaloneDHCP.Server.Acknowledgements
import StandaloneDHCP.Server.AddressIndexes
import StandaloneDHCP.Server.AssignedText
import StandaloneDHCP.Server.Config
import StandaloneDHCP.Server.ConfiguredAddresses
import StandaloneDHCP.Server.DiscoverOutcome
import StandaloneDHCP.Server.Handler
import StandaloneDHCP.Server.HandlerRun
import StandaloneDHCP.Server.Handling
import StandaloneDHCP.Server.LeaseTime
import StandaloneDHCP.Server.Leases
import StandaloneDHCP.Server.MacSpelling
import StandaloneDHCP.Server.Moves
import StandaloneDHCP.Server.Offers
import StandaloneDHCP.Server.Quarantine
import StandaloneDHCP.Server.ReplyAgreement
import StandaloneDHCP.Server.ReplyOptions
import StandaloneDHCP.Server.ReplyPackets
import StandaloneDHCP.Server.ReservedRanges
import StandaloneDHCP.Server.RetryLoop
import StandaloneDHCP.Server.ScopeSelection
import StandaloneDHCP.Server.SenderState
import StandaloneDHCP.Server.ServeDHCP
import StandaloneDHCP.Server.ShuffleMemory
import StandaloneDHCP.Server.StaticAssignments
import StandaloneDHCP.Server.TransactionMarker
import StandaloneDHCP.Wire.AddressText
import StandaloneDHCP.Wire.Dhcp4
import StandaloneDHCP.Wire.Packet
import StandaloneDHCP.Pool.PoolQueue
import StandaloneDHCP.Lib.OnesComplement
import StandaloneDHCP.Relay.RawClient
import StandaloneDHCP.Overrides.OptionValues
import StandaloneDHCP.Lib.InverseCaches
import StandaloneDHCP.Server.LeaseLookups
import StandaloneDHCP.Api.OverrideApi
import StandaloneDHCP.Api.MacEndpoints
import StandaloneDHCP.Api.OverrideHistory
import StandaloneDHCP.Api.Stats
import StandaloneDHCP.Lib.IniFile
import StandaloneDHCP.Lib.JsonTree
import StandaloneDHCP.Api.ConfigApi
import StandaloneDHCP.Lib.Interleaving
import StandaloneDHCP.Workers.WorkerSteps
import StandaloneDHCP.Workers.DuplicateGate
import StandaloneDHCP.Workers.InterleavedLeases
import StandaloneDHCP.Workers.JobQueue
import StandaloneDHCP.Workers.JobRuns
import StandaloneDHCP.Workers.SequentialRun
import StandaloneDHCP.Workers.WorkersReturn
import StandaloneDHCP.Lib.CoveringCaches
import StandaloneDHCP.Server.NetworkIsolation
import StandaloneDHCP.Server.Renewals
import StandaloneDHCP.Server.PoolDrains
import StandaloneDHCP.Server.StartUp
import StandaloneDHCP.Server.ServedScopes
import StandaloneDHCP.Api.StatsRuns
import StandaloneDHCP.Relay.RelayedExchange
