import HermesConversation.Library.Runs
import HermesConversation.Sessions
import HermesConversation.SessionHistory
import HermesConversation.SessionIsolation
import HermesConversation.Library.Text
import HermesConversation.Turns
import HermesConversation.Library.Json
import HermesConversation.Prompts
import HermesConversation.Migration
import HermesConversation.Client
import HermesConversation.ConfigFlow
import HermesConversation.Entities
import HermesConversation.RestrictedPolicy
import HermesConversation.RestrictedGroup
import HermesConversation.EntityWatch
import HermesConversation.UserSync
import HermesConversation.Membership
import HermesConversation.Guard
import HermesConversation.GuardSoundness
import HermesConversation.GuardAgreement
import HermesConversation.Library.Utf8
import HermesConversation.LazyPolicy
import HermesConversation.Stream
import HermesConversation.SyncContract
import HermesConversation.UserRepairs
import HermesConversation.Snapshots
import HermesConversation.AnsweredTurns
import HermesConversation.McpCheck
import HermesConversation.UserWatch
import HermesConversation.Library.Grouping
import HermesConversation.Library.Lines
import HermesConversation.Library.Sorting
import HermesConversation.House
import HermesConversation.HouseOrder
import HermesConversation.AgentForm
import HermesConversation.GuardExact
import HermesConversation.Library.Sweeps
import HermesConversation.SyncRounds
import HermesConversation.OverlappingSyncs
import HermesConversation.SyncProgress
import HermesConversation.Protection
import HermesConversation.Library.Memo
import HermesConversation.PermissionCache
import HermesConversation.Conversations
import HermesConversation.Library.Views
import HermesConversation.Setup
import HermesConversation.SetupRuns
import HermesConversation.Satellites
import HermesConversation.Library.Redaction
import HermesConversation.Diagnostics
import HermesConversation.OptionsFlow
import HermesConversation.Library.Phrases
import HermesConversation.ResetPhrases
import HermesConversation.Answers
