import ZgChoir.Runs
import ZgChoir.OrderedTable
import ZgChoir.DatabaseUpdate
import ZgChoir.Callbacks
import ZgChoir.DatabaseState
import ZgChoir.DatabaseStateSteps
import ZgChoir.PeerSession
import ZgChoir.JuniorProgress
import ZgChoir.SeniorTenure
import ZgChoir.SeniorLog
import ZgChoir.PeerSystem
import ZgChoir.Replicas
import ZgChoir.ReplicaAgreement
import ZgChoir.CatchUp
import ZgChoir.WithinSenior
import ZgChoir.Convergence
import ZgChoir.HeartbeatSession
import ZgChoir.HeartbeatSources
import ZgChoir.Kingmaker
import ZgChoir.LogAccounting
import ZgChoir.MapTotals
import ZgChoir.MessageTree
import ZgChoir.MessageTreeDatabase
import ZgChoir.PeckingOrder
import ZgChoir.RunningChecksum
import ZgChoir.FailureAtomicity
import ZgChoir.TreeArchive
import ZgChoir.DatabaseIsolation
import ZgChoir.DatabaseFootprints
import ZgChoir.UndoStackRuns
import ZgChoir.BackOrderReports
import ZgChoir.NetworkGatewayRuns
import ZgChoir.GatewayReplies
import ZgChoir.OpTagRuns
import ZgChoir.CallbackRuns
import ZgChoir.MuxUpstream
import ZgChoir.ByteFormat
import ZgChoir.HeartbeatWire
import ZgChoir.HeartbeatRoundTrip
import ZgChoir.HeartbeatTiming
import ZgChoir.HeartbeatTables
import ZgChoir.RoundTrips
import ZgChoir.HeartbeatDatagram
import ZgChoir.DatabaseUpdateWire
import ZgChoir.SubscriptionRollback
import ZgChoir.Registrations
import ZgChoir.MuxNotifications
import ZgChoir.OperationTags
import ZgChoir.DeletionReports
import ZgChoir.SubtreeRequests
import ZgChoir.TableUpdates
import ZgChoir.Discovery
import ZgChoir.DiscoveryViews
import ZgChoir.MuxDelivery
import ZgChoir.SymlinkResolver
import ZgChoir.SymlinkTables
import ZgChoir.SymlinkUpstream
import ZgChoir.SymlinkViews
import ZgChoir.Windows
import ZgChoir.TimeAverages
import ZgChoir.SourceTags
import ZgChoir.MulticastTags
import ZgChoir.PacketBacklog
import ZgChoir.SyncPings
import ZgChoir.Segments
import ZgChoir.DatabasePaths
import ZgChoir.DatabasePatterns
import ZgChoir.UndoStackRoundTrips
import ZgChoir.ChoirSession
import ZgChoir.ClockAccuracy
import ZgChoir.ClockLatencies
import ZgChoir.ClientClock
import ZgChoir.BeaconWire
