import StreamGuard.Multipath.ReorderBounds
import StreamGuard.Multipath.ReorderDeadlines
import StreamGuard.Multipath.ReorderAccounting
import StreamGuard.Multipath.ReorderIsolation
import StreamGuard.Multipath.DedupDeterminism
import StreamGuard.Gateway.PoolRecords
import StreamGuard.Gateway.PoolAuthority
import StreamGuard.Gateway.PoolUsable
import StreamGuard.Gateway.PoolOrphans
import StreamGuard.Gateway.PoolDrain
import StreamGuard.Gateway.PoolComplete
import StreamGuard.Gateway.AdmissionBudget
import StreamGuard.Gateway.AdmissionExpiry
import StreamGuard.Gateway.AdmissionUnwind
import StreamGuard.Gateway.AdmissionDrop
import StreamGuard.Gateway.SessionCapabilities
import StreamGuard.Gateway.SessionCapacity
import StreamGuard.Gateway.SessionQuarantine
import StreamGuard.Gateway.Runtime
import StreamGuard.Gateway.ReplayReopen
import StreamGuard.Gateway.Forwarding
import StreamGuard.Transport.CheckedSend
import StreamGuard.Protocol.Envelope
import StreamGuard.Protocol.ControlCodec
import StreamGuard.Protocol.ControlQuiesce
import StreamGuard.V1.FirstValidWins
import StreamGuard.V1.FlowTable
import StreamGuard.V1.AcceptLoop
import StreamGuard.Transport.GateRuns
import StreamGuard.V1.ControlMsg
import StreamGuard.V1.DownlinkLoop
import StreamGuard.V1.Tunnel
import StreamGuard.V1.WeightRefresh
import StreamGuard.Multipath.Classifier
import StreamGuard.Multipath.ReorderOutcome
import StreamGuard.Multipath.DedupHistory
import StreamGuard.Protocol.ControlPending
import StreamGuard.V1.RescanRuns
import StreamGuard.Tun.DriverRuns
import StreamGuard.Gateway.StaleHandles
import StreamGuard.Gateway.SharedAdmission
import StreamGuard.Gateway.ActivityRenewal
import StreamGuard.Gateway.LeaseJournal
import StreamGuard.Gateway.LimiterBooks
import StreamGuard.Transport.PathStates
import StreamGuard.Transport.ControlFramed
import StreamGuard.Gateway.AtomicWrite
import StreamGuard.V1.PathRemoval
import StreamGuard.V1.Announcements
import StreamGuard.V1.Pickers
import StreamGuard.V1.Bonding
import StreamGuard.V1.SessionRuns
import StreamGuard.Tun.DriverDrops
import StreamGuard.Gateway.JournalPaths
import StreamGuard.Platform.Wfp
import StreamGuard.Auth.Token
import StreamGuard.Session.PathIdentifiers
import StreamGuard.Gateway.PersistenceStop
import StreamGuard.Gateway.ReplayOwner
import StreamGuard.Service.StatusPlane
import StreamGuard.Gateway.SweepRuns
import StreamGuard.Tun.EngineEnd
