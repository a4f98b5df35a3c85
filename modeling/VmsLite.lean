import VmsLite.Analysis.CompletedAnalyses
import VmsLite.Analysis.JobClaims
import VmsLite.Analysis.JobTable
import VmsLite.Analysis.PipelineCoordinator
import VmsLite.Analysis.ProcessingJobQueue
import VmsLite.Async.Endings
import VmsLite.Async.Exclusion
import VmsLite.Async.Interference
import VmsLite.Async.Ledger
import VmsLite.Async.Observation
import VmsLite.Async.Program
import VmsLite.Async.Promises
import VmsLite.Async.RelyGuarantee
import VmsLite.Async.Renewal
import VmsLite.Async.Sequential
import VmsLite.Async.Stages
import VmsLite.Async.Stock
import VmsLite.Async.Transition
import VmsLite.Async.Typestate
import VmsLite.Async.Uses
import VmsLite.Backups.BackupService
import VmsLite.Backups.Database
import VmsLite.Backups.FaithfulArchives
import VmsLite.Backups.Merge
import VmsLite.Backups.PartialRestore
import VmsLite.Backups.PermanentRevocation
import VmsLite.Backups.Restore
import VmsLite.Backups.RoundTrip
import VmsLite.Backups.Tar
import VmsLite.Cameras.CameraLimit
import VmsLite.Cameras.Onboarding
import VmsLite.Data.AssociationList
import VmsLite.Data.Base64
import VmsLite.Data.Buffer
import VmsLite.Data.Calendar
import VmsLite.Data.ClosedPath
import VmsLite.Data.Except
import VmsLite.Data.FixedDigits
import VmsLite.Data.Json
import VmsLite.Data.Lines
import VmsLite.Data.LittleEndian
import VmsLite.Data.Positions
import VmsLite.Data.Tables
import VmsLite.Data.Utf8
import VmsLite.Events.EventVisibility
import VmsLite.Events.FeedAccess
import VmsLite.Events.LiveFeed
import VmsLite.Events.SecretScrubbing
import VmsLite.Events.UserInfo
import VmsLite.Exports.EvidenceBundle
import VmsLite.Exports.ExportFiles
import VmsLite.Exports.ExportRuns
import VmsLite.Exports.ExportService
import VmsLite.Exports.HeldRanges
import VmsLite.Exports.JobClaims
import VmsLite.Exports.JobStages
import VmsLite.Exports.ReadableArchives
import VmsLite.Exports.TamperEvidence
import VmsLite.Exports.ZipArchive
import VmsLite.Health.AlertSuppression
import VmsLite.Health.CameraHealth
import VmsLite.Health.CameraStatus
import VmsLite.Health.CheckPool
import VmsLite.Health.OutageAnnouncements
import VmsLite.Health.PoolAwaits
import VmsLite.Health.PoolChecks
import VmsLite.Health.PoolCompleteness
import VmsLite.Health.PoolRuns
import VmsLite.Health.SiteOutage
import VmsLite.Health.StatusHistory
import VmsLite.Incidents.Evidence
import VmsLite.Incidents.IncidentCorrelation
import VmsLite.Media.CameraMediaPaths
import VmsLite.Media.CameraReconciliation
import VmsLite.Media.Credentials
import VmsLite.Media.FailedOnboarding
import VmsLite.Media.Footprint
import VmsLite.Media.HlsProxy
import VmsLite.Media.MediaServer
import VmsLite.Media.OrphanSweep
import VmsLite.Media.PathNames
import VmsLite.Media.PathReconciliation
import VmsLite.Media.RecordingEvents
import VmsLite.Media.RecordingScheduler
import VmsLite.Media.RtspUrl
import VmsLite.Media.SchedulerConsistency
import VmsLite.Notifications.AlertPolicy
import VmsLite.Notifications.ConfigUpdate
import VmsLite.Notifications.MailMessage
import VmsLite.Notifications.SmtpClient
import VmsLite.Notifications.SmtpDialogue
import VmsLite.Notifications.SmtpReplies
import VmsLite.Notifications.TokenBucket
import VmsLite.Onvif.PullPoints
import VmsLite.Onvif.SubscriptionLifecycle
import VmsLite.Paging.Pages
import VmsLite.Paging.Sweep
import VmsLite.Ptz.MovementWatchdog
import VmsLite.Ptz.PtzService
import VmsLite.Recordings.CameraDirectory
import VmsLite.Recordings.Catalog
import VmsLite.Recordings.CrashReconciliation
import VmsLite.Recordings.EngineLifecycle
import VmsLite.Recordings.Evaluation
import VmsLite.Recordings.ExactlyOnce
import VmsLite.Recordings.ExaminedOnce
import VmsLite.Recordings.ExhaustionAlarm
import VmsLite.Recordings.ExpiryReach
import VmsLite.Recordings.FootageAccounting
import VmsLite.Recordings.Footprint
import VmsLite.Recordings.HeldFootage
import VmsLite.Recordings.HoldRaces
import VmsLite.Recordings.IngestCoverage
import VmsLite.Recordings.IngestLoop
import VmsLite.Recordings.IngestRuns
import VmsLite.Recordings.IngestScan
import VmsLite.Recordings.KeptFootage
import VmsLite.Recordings.MotionFootage
import VmsLite.Recordings.MotionNotices
import VmsLite.Recordings.MotionOrder
import VmsLite.Recordings.PassOutcome
import VmsLite.Recordings.PointwiseRetention
import VmsLite.Recordings.PurgePages
import VmsLite.Recordings.PurgeProgress
import VmsLite.Recordings.PurgeReach
import VmsLite.Recordings.PurgeReadings
import VmsLite.Recordings.Repository
import VmsLite.Recordings.RetentionPolicy
import VmsLite.Recordings.ScanParts
import VmsLite.Recordings.SegmentEvents
import VmsLite.Recordings.SegmentFile
import VmsLite.Recordings.SegmentIngest
import VmsLite.Recordings.SegmentNames
import VmsLite.Recordings.StorageController
import VmsLite.Recordings.StorageHistory
import VmsLite.Recordings.StorageInvariants
import VmsLite.Recordings.ThresholdCoherence
import VmsLite.Recordings.Timeline
import VmsLite.Recordings.TwoPhaseDeletion
import VmsLite.Recordings.Types
import VmsLite.Recordings.VolumeGuard
import VmsLite.Recordings.World
import VmsLite.Schedule.CyclicWeek
import VmsLite.Schedule.WeeklyGrid
import VmsLite.Settings.ManualPurge
import VmsLite.Storage.OffloadScheduling
import VmsLite.Storage.TieredStorage
import VmsLite.Url.SpecialUrl
import VmsLite.Users.BruteForce
import VmsLite.Users.CameraScope
import VmsLite.Users.ConcurrentRevocation
import VmsLite.Users.LastAdministrator
import VmsLite.Users.Login
import VmsLite.Users.LoginThrottle
import VmsLite.Users.ScopeAgreement
import VmsLite.Users.SequentialSessions
import VmsLite.Users.Session
import VmsLite.Users.SessionFreshness
import VmsLite.Users.SiteGrants
import VmsLite.Webhooks.AddressTexts
import VmsLite.Webhooks.BlockedAddresses
import VmsLite.Webhooks.DeliveryLifecycle
import VmsLite.Webhooks.DeliveryQueue
import VmsLite.Webhooks.EndpointUpdate
import VmsLite.Webhooks.UrlSafety
import VmsLite.Zones.CacheCoherence
import VmsLite.Zones.CellMotion
import VmsLite.Zones.MotionZones
import VmsLite.Zones.PointInPolygon
import VmsLite.Zones.SpatialMotionFilter
