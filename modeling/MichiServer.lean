import MichiServer.Upload.EndToEnd
import MichiServer.Upload.Recovery
import MichiServer.Receivers.Supervision
import MichiServer.Projection.Initialize
import MichiServer.Transfer.AtMostOnce
import MichiServer.Ingest.Guard
import MichiServer.Streaming.Containment
import MichiServer.Scanner.MountLoss
import MichiServer.Scanner.ContentHash
import MichiServer.Scanner.Convergence
import MichiServer.Backup.TwoPaths
import MichiServer.Accounts.Finality
import MichiServer.Link.Rotation
import MichiServer.Outbox.Due
import MichiServer.Manifest.Convergence
import MichiServer.Settings.Precedence
import MichiServer.Receivers.GrantRuns
import MichiServer.Receivers.PawPass
import MichiServer.Receivers.Volumes
import MichiServer.Receivers.Convergence
import MichiServer.Receivers.Endpoints
import MichiServer.Receivers.PairingRuns
import MichiServer.Queue.Reorder
import MichiServer.Sync.Feed
import MichiServer.Sync.Once
import MichiServer.Upload.Watch
import MichiServer.Receivers.Stored
import MichiServer.Playback.Generation
import MichiServer.Playback.Shuffle
import MichiServer.Playback.Index
import MichiServer.Playback.ReceiverSink
import MichiServer.Transfer.ReadyProof
import MichiServer.Link.Idempotency
import MichiServer.Receivers.HeartbeatSequence
import MichiServer.Receivers.CapabilityCheck
import MichiServer.Transfer.Duration
import MichiServer.Streaming.Ranges
import MichiServer.Streaming.Bitrate
import MichiServer.M3u.CueTimes
import MichiServer.Ingest.Episodes
import MichiServer.Import.Terminal
import MichiServer.Network.PairingLimit
import MichiServer.Jobs.Queue
import MichiServer.Catalog.Bookmarks
import MichiServer.Sync.PairingCodes
import MichiServer.Catalog.Decoders
import MichiServer.Catalog.AdvancedSearch
import MichiServer.Jobs.Maintenance
import MichiServer.Backup.Bundle
import MichiServer.Import.Mapping
import MichiServer.M3u.Export
import MichiServer.Network.Forwarded
import MichiServer.Chains.Links
import MichiServer.Updates.Releases
import MichiServer.Receivers.SingleFlight
import MichiServer.Accounts.ManagedAdmin
import MichiServer.Receivers.Outputs
import MichiServer.Settings.Peers
import MichiServer.Receivers.OneEntry
import MichiServer.Queue.Session
import MichiServer.HomeAssistant.AckTracker
import MichiServer.Modules.Toggle
