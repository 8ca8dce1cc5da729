import AlsaqiBackend.Lib.Run
import AlsaqiBackend.Lib.Modify
import AlsaqiBackend.Lib.Digits
import AlsaqiBackend.Lib.Separator
import AlsaqiBackend.Lib.JsDate
import AlsaqiBackend.Lib.JsMap
import AlsaqiBackend.Lib.JsString
import AlsaqiBackend.Lib.Numerals
import AlsaqiBackend.Lib.Json
import AlsaqiBackend.Lib.Sha256
import AlsaqiBackend.Lib.Linked
import AlsaqiBackend.Lib.SlidingWindow
import AlsaqiBackend.Lib.Checks
import AlsaqiBackend.Lib.Overrides
import AlsaqiBackend.Lib.PgTransaction
import AlsaqiBackend.Lib.OrderedMap
import AlsaqiBackend.Lib.Aead
import AlsaqiBackend.Lib.Table
import AlsaqiBackend.Db.ReadWriteLock
import AlsaqiBackend.Db.LockSafety
import AlsaqiBackend.Db.LockPolicy
import AlsaqiBackend.Db.Transaction
import AlsaqiBackend.Db.Atomicity
import AlsaqiBackend.Db.EventDispatch
import AlsaqiBackend.Db.Confinement
import AlsaqiBackend.Audit.Chain
import AlsaqiBackend.Audit.Verify
import AlsaqiBackend.Audit.Append
import AlsaqiBackend.Audit.Tampering
import AlsaqiBackend.Audit.Retention
import AlsaqiBackend.RateLimit.Limiter
import AlsaqiBackend.RateLimit.Paths
import AlsaqiBackend.RateLimit.Fallback
import AlsaqiBackend.RateLimit.Alias
import AlsaqiBackend.Idempotency.Service
import AlsaqiBackend.Idempotency.Effective
import AlsaqiBackend.Idempotency.InFlight
import AlsaqiBackend.Idempotency.Router
import AlsaqiBackend.Auth.Cache
import AlsaqiBackend.Auth.Freshness
import AlsaqiBackend.Auth.Tokens
import AlsaqiBackend.Sessions.Service
import AlsaqiBackend.Sessions.Rotation
import AlsaqiBackend.Sessions.Revocation
import AlsaqiBackend.TwoFactor.Totp
import AlsaqiBackend.TwoFactor.Replay
import AlsaqiBackend.TwoFactor.Lockout
import AlsaqiBackend.TwoFactor.BackupCodes
import AlsaqiBackend.TwoFactor.Routes
import AlsaqiBackend.Users.Identity
import AlsaqiBackend.Users.LastAdmin
import AlsaqiBackend.Users.EmployeeId
import AlsaqiBackend.Login.Lockout
import AlsaqiBackend.Login.Notification
import AlsaqiBackend.Login.Optional
import AlsaqiBackend.Passwords.Policy
import AlsaqiBackend.Passwords.History
import AlsaqiBackend.Passwords.Resets
import AlsaqiBackend.Permissions.Service
import AlsaqiBackend.Permissions.Readings
import AlsaqiBackend.Permissions.Admin
import AlsaqiBackend.Permissions.RoleUpdate
import AlsaqiBackend.Permissions.AuditLog
import AlsaqiBackend.Permissions.Cache
import AlsaqiBackend.Permissions.CacheFreshness
import AlsaqiBackend.Permissions.Untouched
import AlsaqiBackend.Events.Session
import AlsaqiBackend.Events.Operations
import AlsaqiBackend.Events.Delivery
import AlsaqiBackend.Events.Notification
import AlsaqiBackend.Events.CommitOrder
import AlsaqiBackend.Webhook.CircuitBreaker
import AlsaqiBackend.Webhook.Probes
import AlsaqiBackend.Webhook.Opening
import AlsaqiBackend.Webhook.DeadLetters
import AlsaqiBackend.Findings.Service
import AlsaqiBackend.Findings.StatusMachine
import AlsaqiBackend.Findings.Sync
import AlsaqiBackend.Findings.Cascade
import AlsaqiBackend.Tasks.StatusMachine
import AlsaqiBackend.Plans.OnePerYear
import AlsaqiBackend.Numbering.Service
import AlsaqiBackend.Numbering.Codes
import AlsaqiBackend.Numbering.GapFree
import AlsaqiBackend.Numbering.AppCodes
import AlsaqiBackend.Files.Encryption
import AlsaqiBackend.Files.Rotation
import AlsaqiBackend.Files.Streaming
import AlsaqiBackend.Templates.Service
import AlsaqiBackend.Templates.Invariants
import AlsaqiBackend.Correspondence.Service
import AlsaqiBackend.Correspondence.History
import AlsaqiBackend.Correspondence.Frozen
import AlsaqiBackend.Records.Service
import AlsaqiBackend.Records.Bulk
import AlsaqiBackend.Records.SoftDelete
import AlsaqiBackend.Archive.Service
import AlsaqiBackend.Archive.Completeness
import AlsaqiBackend.Archive.Readiness
import AlsaqiBackend.Auth.Csrf
import AlsaqiBackend.Evidence.FileNames
import AlsaqiBackend.Evidence.Storage
import AlsaqiBackend.Permissions.CacheRefinement
import AlsaqiBackend.Responses.Envelope
import AlsaqiBackend.Idempotency.Replay
import AlsaqiBackend.Files.FailedUploads
import AlsaqiBackend.Pdf.Rendering
import AlsaqiBackend.Routes.CanonicalForm
import AlsaqiBackend.Archive.Concurrent
import AlsaqiBackend.Lib.Utf8
import AlsaqiBackend.Lib.Percent
import AlsaqiBackend.Files.SignedUrls
import AlsaqiBackend.Records.RouteFields
import AlsaqiBackend.Redis.Manager
import AlsaqiBackend.Redis.Recovery
import AlsaqiBackend.Redis.Disconnect
import AlsaqiBackend.Db.AppliedOnce
import AlsaqiBackend.Lib.Base64Url
import AlsaqiBackend.Lib.Paging
import AlsaqiBackend.Pagination.Traversal
import AlsaqiBackend.Pagination.CursorPosition
import AlsaqiBackend.Pagination.Listing
import AlsaqiBackend.Pagination.NumberedPages
import AlsaqiBackend.Files.Retirement
import AlsaqiBackend.Files.RetirementSafety
import AlsaqiBackend.Files.Containment
import AlsaqiBackend.Files.SecureServing
import AlsaqiBackend.Lib.StreamCipher
import AlsaqiBackend.Backup.ArchiveEncryption
import AlsaqiBackend.Backup.Scheduler
import AlsaqiBackend.Backup.Tracking
import AlsaqiBackend.Lib.Months
import AlsaqiBackend.Audit.Partitions
import AlsaqiBackend.Audit.PartitionCoverage
import AlsaqiBackend.Audit.PartitionMaintenance
import AlsaqiBackend.Lib.Routing
import AlsaqiBackend.Routes.Table
import AlsaqiBackend.Routes.PasswordGate
import AlsaqiBackend.Notifications.Service
import AlsaqiBackend.Notifications.FanOut
import AlsaqiBackend.Queues.Manager
import AlsaqiBackend.Queues.DeadLetters
import AlsaqiBackend.Cron.Deadlines
import AlsaqiBackend.Cron.OncePerDay
import AlsaqiBackend.Lib.ParentPointers
import AlsaqiBackend.Organization.Service
import AlsaqiBackend.Organization.Structure
import AlsaqiBackend.Fraud.AccessRequests
import AlsaqiBackend.Fraud.Decisions
import AlsaqiBackend.Programs.Service
import AlsaqiBackend.Programs.Approvals
import AlsaqiBackend.Records.Restore
import AlsaqiBackend.Auth.KeyStore
import AlsaqiBackend.Pdf.BrowserPool
import AlsaqiBackend.Pdf.PoolAccounting
import AlsaqiBackend.Pdf.PoolInvariant
import AlsaqiBackend.Files.AccessLog
import AlsaqiBackend.Files.AccessLogged
import AlsaqiBackend.Ws.Upgrades
import AlsaqiBackend.Findings.StatusChange
import AlsaqiBackend.Lib.KeyPaging
import AlsaqiBackend.Pagination.ColumnCursor
import AlsaqiBackend.Cron.UserLookup
import AlsaqiBackend.Db.Placeholders
import AlsaqiBackend.Ws.Heartbeat
import AlsaqiBackend.Records.Search
import AlsaqiBackend.Tasks.Assignments
import AlsaqiBackend.Server.Shutdown
