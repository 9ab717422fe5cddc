import NestBase.Lib.Transition
import NestBase.Lib.Upkeep
import NestBase.Lib.ExpiringCounters
import NestBase.Lib.Json
import NestBase.Lib.JsonText
import NestBase.Lib.Table
import NestBase.Lib.Tombstones
import NestBase.Lib.Text
import NestBase.Lib.TsxScanner
import NestBase.Lib.PosixPath
import NestBase.Lib.Unicode
import NestBase.Lib.ZodSchema
import NestBase.Lib.CursorPages
import NestBase.Lib.ChangeStore
import NestBase.Lib.PrismaClient
import NestBase.Lib.RecencyMap
import NestBase.Lib.SlidingWindow
import NestBase.Lib.IpAddress
import NestBase.Lib.StableSort
import NestBase.Lib.Number
import NestBase.Lib.JsonReader
import NestBase.Lib.CommentPasses
import NestBase.Lib.ShellWords
import NestBase.Lib.NumberText
import NestBase.Lib.ParentForest
import NestBase.Lib.ByteFields
import NestBase.Lib.Crc32
import NestBase.Lib.NumberBits
import NestBase.Lib.MarkedText
import NestBase.Lib.Cron
import NestBase.Lib.AddressText
import NestBase.Lib.TextReplace
import NestBase.Lib.UnifiedDiff
import NestBase.Lib.EnvText
import NestBase.Lib.Memo
import NestBase.Lib.Words
import NestBase.Lib.TextSearchQuery
import NestBase.Lib.LastMatch
import NestBase.Lib.OrderedMap
import NestBase.Lib.KeyedTable
import NestBase.Lib.SessionLock
import NestBase.Lib.SqlSession
import NestBase.Lib.Transaction
import NestBase.Lib.MongoQuery
import NestBase.Lib.PercentEncoding
import NestBase.Lib.Base64
import NestBase.Core.FieldEncryption
import NestBase.Core.KeyRotation
import NestBase.Core.IdempotencyService
import NestBase.Core.IdempotencyRuns
import NestBase.Core.EmailOutbox
import NestBase.Core.EmailOutboxTerminal
import NestBase.Core.EmailOutboxBackoff
import NestBase.Core.HttpPaths
import NestBase.Core.Permissions
import NestBase.Core.CaslAbility
import NestBase.Core.FilterDsl
import NestBase.Core.FilterMeaning
import NestBase.Core.PermissionStorage
import NestBase.Core.ItemFilterGrants
import NestBase.Core.ApiKeyScopes
import NestBase.Core.PermissionService
import NestBase.Core.ApiKeyService
import NestBase.Core.ApiKeyOwnership
import NestBase.Core.RequestChain
import NestBase.Core.TenantAgreement
import NestBase.Core.BearerTokens
import NestBase.Core.BootstrapMounts
import NestBase.Core.HubPortal
import NestBase.Core.IpxGate
import NestBase.Core.FileStorage
import NestBase.Core.FileService
import NestBase.Core.FolderStorage
import NestBase.Core.FolderStorageRuns
import NestBase.Core.AssetService
import NestBase.Core.AssetFreshness
import NestBase.Core.AssetRequests
import NestBase.Core.StorageAdapterDataStore
import NestBase.Core.ResumableUploads
import NestBase.Core.ResumableWrites
import NestBase.Core.MigrationsLock
import NestBase.Core.MigrationRetry
import NestBase.Core.SqlStatements
import NestBase.Core.DryRun
import NestBase.Core.TenantSelfService
import NestBase.Core.TenantAdmin
import NestBase.Core.GdprErasure
import NestBase.Core.GdprErasureRunner
import NestBase.Core.GdprRequests
import NestBase.Core.S3Storage
import NestBase.Core.Examples
import NestBase.Core.Timestamps
import NestBase.Core.ApiKeyExpiry
import NestBase.Core.ApiKeyExpiryRuns
import NestBase.Core.DbReset
import NestBase.Core.ExampleListing
import NestBase.Core.SignedUrls
import NestBase.Core.PrismaSchema
import NestBase.Core.PrismaExtensions
import NestBase.Core.AuditExtension
import NestBase.Core.RecipientRateLimiter
import NestBase.Core.RedisRecipientRateLimiter
import NestBase.Core.WebhookUrlValidator
import NestBase.Core.RateLimitConfig
import NestBase.Core.PermissionRecency
import NestBase.Core.IdempotencyKeyOrder
import NestBase.Core.UserProfiles
import NestBase.Core.DeviceFingerprint
import NestBase.Core.DeviceHandling
import NestBase.Core.SearchHighlight
import NestBase.Core.SyncToTemplate
import NestBase.Core.EnvFileUpdate
import NestBase.Core.FrontendEnvBridge
import NestBase.Core.FtsQuery
import NestBase.Core.ChannelFilter
import NestBase.Core.Cursors
import NestBase.Core.EmailOutboxListing
import NestBase.Core.ErrorCatalogue
import NestBase.Core.RlsAudit
import NestBase.Core.RlsAuditSchemas
import NestBase.Core.RlsAuditCoverage
import NestBase.Core.DevJobs
import NestBase.Core.Throttler
import NestBase.Core.ThrottlerCleanup
import NestBase.Core.ZipFilenames
import NestBase.Core.ZipBuilder
import NestBase.Core.ZipChecksum
import NestBase.Core.ZipReader
import NestBase.Core.UploadPaths
import NestBase.Core.InspectorCurl
import NestBase.Core.ShareLink
import NestBase.Core.FileManagerTree
import NestBase.Core.FileManagerForest
import NestBase.Core.FileManagerCycles
import NestBase.Core.FileManagerBreadcrumb
import NestBase.Core.RouteAudit
import NestBase.Core.RouteAuditScans
import NestBase.Core.RouteAuditWalks
import NestBase.Core.RouteAuditReads
import NestBase.Core.RouteAuditComments
import NestBase.Core.StorageKeys
import NestBase.Core.IdempotencyFingerprint
import NestBase.Core.IdempotencyReplay
import NestBase.Core.FileTenancy
import NestBase.Core.FileQuarantine
import NestBase.Core.Outbox
import NestBase.Core.OutboxRetry
import NestBase.Core.WebhookSignature
import NestBase.Core.WebhookDispatcher
import NestBase.Core.WebhookAutoDisable
import NestBase.Core.WebhookOutbox
import NestBase.Core.WebhookOutboxDelivery
import NestBase.Core.OutputPipeline
import NestBase.Core.OutputTransparency
import NestBase.Core.OutputFields
import NestBase.Core.PowerSyncConflict
import NestBase.Core.PowerSyncStore
import NestBase.Core.PowerSyncUploads
import NestBase.Core.PowerSyncOverlap
import NestBase.Core.BaseRepository
import NestBase.Core.FieldEncryptionExtension
import NestBase.Core.ApiKeyRevocation
import NestBase.Core.EmailOutboxDedup
import NestBase.Core.LocalStorage
import NestBase.Core.InProcessQueue
import NestBase.Core.BullMQJobQueue
import NestBase.Core.CronInterval
import NestBase.Core.RealtimeChannels
import NestBase.Core.RealtimeOutbox
import NestBase.Core.RealtimeRegistry
import NestBase.Core.EmailBuilder
import NestBase.Core.EmailPlaceholders
import NestBase.Core.EmailPieces
import NestBase.Core.EmailContainment
import NestBase.Core.EmailSourceContainment
