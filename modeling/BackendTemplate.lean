import BackendTemplate.Prog
import BackendTemplate.Interleave
import BackendTemplate.RowLocks
import BackendTemplate.Keyed
import BackendTemplate.Dict
import BackendTemplate.Runs
import BackendTemplate.Absorption
import BackendTemplate.Values
import BackendTemplate.Account
import BackendTemplate.AccountLock
import BackendTemplate.Session
import BackendTemplate.Tables
import BackendTemplate.Rows
import BackendTemplate.World
import BackendTemplate.Codecs
import BackendTemplate.Reference
import BackendTemplate.Events
import BackendTemplate.Collection
import BackendTemplate.OutboxWorker
import BackendTemplate.Maintenance
import BackendTemplate.UserService
import BackendTemplate.UseCases
import BackendTemplate.Progress
import BackendTemplate.Discipline
import BackendTemplate.Effects
import BackendTemplate.Coherence
import BackendTemplate.SessionRows
import BackendTemplate.Transactions
import BackendTemplate.Identities
import BackendTemplate.TokenHashes
import BackendTemplate.Commits
import BackendTemplate.Revocation
import BackendTemplate.Rotation
import BackendTemplate.Sequential
import BackendTemplate.UserRows
import BackendTemplate.SecondFactor
import BackendTemplate.Journal
import BackendTemplate.LostUpdates
import BackendTemplate.CacheEffects
import BackendTemplate.Challenges
import BackendTemplate.Lifetime
import BackendTemplate.Replay
import BackendTemplate.PasswordChange
import BackendTemplate.Provenance
import BackendTemplate.ResetTokens
import BackendTemplate.Verification
import BackendTemplate.Consistency
import BackendTemplate.Deletion
import BackendTemplate.Anonymisation
import BackendTemplate.Retention
import BackendTemplate.HydraBridge
import BackendTemplate.Isolation
import BackendTemplate.Outbox
import BackendTemplate.OutboxLifecycle
import BackendTemplate.OutboxProgress
import BackendTemplate.Rbac
import BackendTemplate.RbacRows
import BackendTemplate.RbacService
import BackendTemplate.RoleStore
import BackendTemplate.RoleEdits
import BackendTemplate.RoleRaces
import BackendTemplate.RbacInserts
import BackendTemplate.RbacAdditions
import BackendTemplate.RbacRaces
import BackendTemplate.SetMap
import BackendTemplate.RoleReads
import BackendTemplate.RoleMap
import BackendTemplate.SlidingWindow
import BackendTemplate.RateLimiter
import BackendTemplate.LoginLimiter
import BackendTemplate.RedisLimiter
import BackendTemplate.LimiterBackends
import BackendTemplate.Lockout
import BackendTemplate.RetryAfter
import BackendTemplate.MemoryCache
import BackendTemplate.Idempotency
import BackendTemplate.Registration
import BackendTemplate.Retries
import BackendTemplate.Identifiers
import BackendTemplate.SessionPaths
import BackendTemplate.ChallengeCounter
import BackendTemplate.ReuseAlarm
import BackendTemplate.IpAddress
import BackendTemplate.ClientIp
import BackendTemplate.UserColumns
import BackendTemplate.LockRecord
import BackendTemplate.BackupCodes
import BackendTemplate.OAuthClients
import BackendTemplate.ConstraintErrors
import BackendTemplate.SessionPages
import BackendTemplate.Settings
import BackendTemplate.EventConsumers
import BackendTemplate.BearerAuth
import BackendTemplate.HttpsRedirect
import BackendTemplate.LoginForm
import BackendTemplate.ApiScopes
import BackendTemplate.Relational
import BackendTemplate.SchemaChanges
import BackendTemplate.Migrations
import BackendTemplate.Deployments
import BackendTemplate.Upgrades
import BackendTemplate.StoredRows
import BackendTemplate.ConstraintAgreement
import BackendTemplate.SessionOwners
import BackendTemplate.UserReads
import BackendTemplate.Consent
import BackendTemplate.ConsentFlow
import BackendTemplate.AccessPolicy
import BackendTemplate.RolePolicy
import BackendTemplate.AdminSeed
import BackendTemplate.FixedWindow
import BackendTemplate.RedisLoginLimiter
import BackendTemplate.JsonText
import BackendTemplate.LogLines
import BackendTemplate.RequestIds
import BackendTemplate.PydanticJson
import BackendTemplate.Templates
import BackendTemplate.Pages
import BackendTemplate.EmailLinks
