import BallyDongle.Lib.BoundedMap
import BallyDongle.Lib.BoundedQueue
import BallyDongle.Lib.BlockStream
import BallyDongle.Lib.Cobs
import BallyDongle.Lib.WrapClock
import BallyDongle.HubRelay
import BallyDongle.HubRegistry
import BallyDongle.BtpTransport.PeerTable
import BallyDongle.BtpTransport.ReverseLookup
import BallyDongle.BtpTransport.PeerHistory
import BallyDongle.BtpTransport.BtpCommand
import BallyDongle.SerialMux.TeardownRun
import BallyDongle.SerialSession
import BallyDongle.SerialSession.SessionEnd
import BallyDongle.SerialMux.Leases
import BallyDongle.ManifestCache
import BallyDongle.SerialMux.WireFraming
import BallyDongle.SerialMux.Tick
import BallyDongle.SerialMux.OpaqueChild
import BallyDongle.SerialMux.StagingBuffer
import BallyDongle.EspNowConfig.RelayPending
import BallyDongle.EspNowConfig.Capacity
import BallyDongle.EspNowConfig.BlindRelay
import BallyDongle.EspNowConfig.AsyncRx
import BallyDongle.ManifestCache.Coherence
import BallyDongle.ManifestCache.TopicLookup
import BallyDongle.ManifestCache.Verbatim
import BallyDongle.ManifestCache.RequestRate
import BallyDongle.ManifestCache.Eviction
import BallyDongle.ManifestCache.Budgets
import BallyDongle.Lib.OctetBuffer
import BallyDongle.ManifestCache.SourceInfo
import BallyDongle.ManifestCache.SourceInfoBuffer
import BallyDongle.SerialMux.Enumeration
import BallyDongle.SerialMux.Bursts
import BallyDongle.RadioTxScheduler
import BallyDongle.SerialMux.DrainOrder
import BallyDongle.SerialMux.DropAccounting
import BallyDongle.SubscriptionRegistry.Grants
import BallyDongle.SerialMux.TelemetryGate
import BallyDongle.EspNowManager.PeersAgree
import BallyDongle.EspNowManager.OwnStatus
import BallyDongle.EspNowManager.OwnFailure
import BallyDongle.DongleCommands
import BallyDongle.AppRuntime
import BallyDongle.SerialMux.OwnManifest
import BallyDongle.Lib.PackedLe
import BallyDongle.DonglePublisher.Samples
import BallyDongle.DonglePublisher.Publication
import BallyDongle.DonglePublisher.Schedule
import BallyDongle.DonglePublisher.WholeRecords
import BallyDongle.SerialSession.EnterLine
import BallyDongle.ShellConfig
import BallyDongle.ShellConfig.Elevation
import BallyDongle.StringCompat
import BallyDongle.ShellOutput
import BallyDongle.ShellConfig.Splitting
import BallyDongle.DongleKeyStore
import BallyDongle.DongleKeyStore.Standards
import BallyDongle.Btp.CommandLayout
import BallyDongle.EspNowCommands
import BallyDongle.Lib.StateShift
import BallyDongle.DatabaseStore
import BallyDongle.DatabaseStore.Operations
import BallyDongle.DatabaseStore.LockBalance
import BallyDongle.DatabaseStore.CommandLog
import BallyDongle.Lib.Quoted
import BallyDongle.Lib.Csv
import BallyDongle.DatabaseStore.CsvExport
import BallyDongle.Lib.SqlTokens
import BallyDongle.DatabaseStore.PeerStatements
import BallyDongle.Sqlite.Keywords
import BallyDongle.Sqlite.Tokens
import BallyDongle.DatabaseStore.TableNames
import BallyDongle.Lib.Calendar
import BallyDongle.Lib.ScanInt
import BallyDongle.ClockText
import BallyDongle.ClockText.Meaning
import BallyDongle.UsbHidMux
import BallyDongle.EspNowManager.FrameLedger
import BallyDongle.EspNowManager.WakeUp
import BallyDongle.Lib.CobsStream
import BallyDongle.SerialMux.CableOrder
import BallyDongle.Lib.RoundRobin
import BallyDongle.EspNowConfig.Probes
import BallyDongle.Lib.Painting
import BallyDongle.LcdDashboard
import BallyDongle.LcdDashboard.Repaint
import BallyDongle.LcdDashboard.Live
import BallyDongle.DongleSdCard.Tree
import BallyDongle.DongleCommands.SdRuns
import BallyDongle.EspNowCommands.PeerBook
