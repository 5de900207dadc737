import LarkPlat.AccessTokens
import LarkPlat.AccountBinding
import LarkPlat.Accounts
import LarkPlat.Activation
import LarkPlat.ActiveAlerts
import LarkPlat.Advances
import LarkPlat.AgentBinding
import LarkPlat.AgentRegistry
import LarkPlat.AlertEffects
import LarkPlat.AlertPrograms
import LarkPlat.AlertRows
import LarkPlat.AlertTrace
import LarkPlat.AlertViews
import LarkPlat.Alerts
import LarkPlat.ApprovalDispatch
import LarkPlat.ArticleHistory
import LarkPlat.AuditRedaction
import LarkPlat.BadEvents
import LarkPlat.BoundedSearch
import LarkPlat.CanaryRuns
import LarkPlat.Categories
import LarkPlat.CircuitBreaker
import LarkPlat.Cmdb
import LarkPlat.CmdbReach
import LarkPlat.CmdbVisibility
import LarkPlat.ConfigCalls
import LarkPlat.ConfigRoundTrip
import LarkPlat.ConfigSecrets
import LarkPlat.Cooldown
import LarkPlat.Credentials
import LarkPlat.CycleCheck
import LarkPlat.DailyRollup
import LarkPlat.DailyRows
import LarkPlat.DanglingRelations
import LarkPlat.Decisions
import LarkPlat.Definition
import LarkPlat.DefinitionCheck
import LarkPlat.DispatchCalls
import LarkPlat.DispatchClaims
import LarkPlat.DispatchHandover
import LarkPlat.DispatchPermits
import LarkPlat.DistinctAlerts
import LarkPlat.DueSchedules
import LarkPlat.EmbeddingStore
import LarkPlat.Engine
import LarkPlat.EngineMoves
import LarkPlat.Escalation
import LarkPlat.EventIntake
import LarkPlat.EventOnce
import LarkPlat.EventPasses
import LarkPlat.EventTaken
import LarkPlat.Events
import LarkPlat.ExecCalls
import LarkPlat.ExecDispatch
import LarkPlat.ExecEffects
import LarkPlat.ExecProtocol
import LarkPlat.ExecRows
import LarkPlat.ExecService
import LarkPlat.ExpiringKeys
import LarkPlat.ExternalLogin
import LarkPlat.Faults
import LarkPlat.FileTree
import LarkPlat.FinalHosts
import LarkPlat.Finalisation
import LarkPlat.Flow
import LarkPlat.Forests
import LarkPlat.Grouping
import LarkPlat.HostExport
import LarkPlat.HostGroups
import LarkPlat.HostImport
import LarkPlat.HostReferences
import LarkPlat.HostRows
import LarkPlat.HostWrites
import LarkPlat.Idempotency
import LarkPlat.Ingest
import LarkPlat.IngestRules
import LarkPlat.Interference
import LarkPlat.Interleaving
import LarkPlat.Isolation
import LarkPlat.Json
import LarkPlat.JsonPaths
import LarkPlat.KbConfinement
import LarkPlat.Kickoffs
import LarkPlat.Knowledge
import LarkPlat.Lifecycle
import LarkPlat.LiveHosts
import LarkPlat.LockedTable
import LarkPlat.LogPages
import LarkPlat.LoginLockout
import LarkPlat.Machine
import LarkPlat.MaskEcho
import LarkPlat.MetricAgreement
import LarkPlat.MetricBuckets
import LarkPlat.MetricConfinement
import LarkPlat.MetricReads
import LarkPlat.OauthStates
import LarkPlat.Orphans
import LarkPlat.PackageStore
import LarkPlat.Paging
import LarkPlat.Pairing
import LarkPlat.ParentTrees
import LarkPlat.PrivilegedGrants
import LarkPlat.Programs
import LarkPlat.Progress
import LarkPlat.PullChunks
import LarkPlat.PullContainment
import LarkPlat.PullWhitelist
import LarkPlat.PushFrames
import LarkPlat.Ranking
import LarkPlat.Rca
import LarkPlat.RcaVisibility
import LarkPlat.RcaWindows
import LarkPlat.RealtimeLog
import LarkPlat.Recovery
import LarkPlat.RefreshTokens
import LarkPlat.RequestKeys
import LarkPlat.ResolvedAlerts
import LarkPlat.ResumeOffsets
import LarkPlat.Retrieval
import LarkPlat.RetryPaths
import LarkPlat.RunInvariants
import LarkPlat.RunRealtime
import LarkPlat.RunService
import LarkPlat.RunningBound
import LarkPlat.ScheduleSweep
import LarkPlat.Schedules
import LarkPlat.SealedConfigs
import LarkPlat.Semaphore
import LarkPlat.SensitiveGate
import LarkPlat.ServedHosts
import LarkPlat.SessionRefresh
import LarkPlat.Sessions
import LarkPlat.SlashPaths
import LarkPlat.SshPath
import LarkPlat.StatusRequests
import LarkPlat.StepReturns
import LarkPlat.StepRows
import LarkPlat.StuckTasks
import LarkPlat.Subjects
import LarkPlat.Subscriptions
import LarkPlat.SustainedFiring
import LarkPlat.SweepCoverage
import LarkPlat.Table
import LarkPlat.Tags
import LarkPlat.TerminalConsoles
import LarkPlat.TerminalRecording
import LarkPlat.Terminals
import LarkPlat.Text
import LarkPlat.TicketHistory
import LarkPlat.Tickets
import LarkPlat.Trails
import LarkPlat.TransferAggregates
import LarkPlat.TransferDispatch
import LarkPlat.TransferFrames
import LarkPlat.TransferPool
import LarkPlat.TransferRows
import LarkPlat.TransferRules
import LarkPlat.TransitionTables
import LarkPlat.Traversals
import LarkPlat.UserPermissions
import LarkPlat.VerifiedResults
import LarkPlat.Versions
import LarkPlat.Visibility
import LarkPlat.Webhooks
import LarkPlat.WorkflowRows
