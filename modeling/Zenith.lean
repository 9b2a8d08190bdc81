import Zenith.Scheduler.LeaseAccounting
import Zenith.Scheduler.RetryAfter
import Zenith.Scheduler.CooldownPolicy
import Zenith.Scheduler.HalfOpen
import Zenith.Quota.QueueRefinement
import Zenith.Runtime.Removal
import Zenith.Accounts.TokenRotation
import Zenith.Gateway.StreamTransparency
import Zenith.Gateway.StreamedUsage
import Zenith.Gateway.TurnState
import Zenith.Profiles.Crashes
import Zenith.Profiles.AccountCrashes
import Zenith.Profiles.FailedAttach
import Zenith.Server.Equivalents
import Zenith.Server.WakeAutomation
import Zenith.Server.Deletion
import Zenith.Server.ImportSecrets
import Zenith.Server.KeyRotation
import Zenith.Server.ReplacedTokens
import Zenith.Scheduler.AffinityLedger
import Zenith.Scheduler.SelectionReason
import Zenith.Scheduler.StormBreaker
import Zenith.Automations.WakeRestart
import Zenith.Runtime.SourcePolicies
import Zenith.Pricing.AccountPrices
import Zenith.Scheduler.FairRotation
import Zenith.Usage.Estimates
import Zenith.Server.PassiveQuota
import Zenith.Secrets.SecretStore
import Zenith.Server.Restore
import Zenith.Accounts.ImportTokens
import Zenith.Gateway.EncryptedContent
import Zenith.Gateway.RepairedRequests
import Zenith.Presets.Canonical
import Zenith.Presets.Diff
import Zenith.Profiles.HistoryRepair
import Zenith.Profiles.OpenCode
import Zenith.Protocol.ContinuationStore
import Zenith.Protocol.GeminiArguments
import Zenith.Protocol.PathPatches
import Zenith.Quota.LateHeaders
import Zenith.Server.ExhaustedWeek
import Zenith.Server.Transfer
