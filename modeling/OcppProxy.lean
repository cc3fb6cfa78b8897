import OcppProxy.AcceptedLimits
import OcppProxy.Agreement
import OcppProxy.Announcement
import OcppProxy.AnsweredCommands
import OcppProxy.AttemptSpacing
import OcppProxy.Attribution
import OcppProxy.CallContents
import OcppProxy.Capacities
import OcppProxy.CommandOrder
import OcppProxy.CommandTopics
import OcppProxy.ConfinedCommands
import OcppProxy.EnergyDelta
import OcppProxy.Expiry
import OcppProxy.ForwarderBuffers
import OcppProxy.FrameAccount
import OcppProxy.HandOver
import OcppProxy.Health
import OcppProxy.LimitParties
import OcppProxy.LimitPolicy
import OcppProxy.LineDiscipline
import OcppProxy.MessageCounts
import OcppProxy.QueueDiscipline
import OcppProxy.ReconnectWindow
import OcppProxy.Registry
import OcppProxy.Replay
import OcppProxy.RetainedTopics
import OcppProxy.SessionAccounting
import OcppProxy.SessionTiming
import OcppProxy.SnapshotFile
import OcppProxy.SnapshotHistory
import OcppProxy.SnapshotRestart
import OcppProxy.StandingLimit
import OcppProxy.StatusRefinement
import OcppProxy.Supersession
import OcppProxy.Teardown
import OcppProxy.TrafficReports
import OcppProxy.Transparency
import OcppProxy.UniqueIds
import OcppProxy.Unwinding
import OcppProxy.UpstreamUrl
