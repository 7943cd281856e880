import OmarchyKids.Lib.Runs
import OmarchyKids.Lib.Utf8
import OmarchyKids.Lib.ByteStream
import OmarchyKids.Lib.Json
import OmarchyKids.Lib.Digits
import OmarchyKids.Lib.Base64
import OmarchyKids.Lib.Calendar
import OmarchyKids.Common.Time
import OmarchyKids.Common.Files
import OmarchyKids.Common.Config
import OmarchyKids.Lib.Text
import OmarchyKids.Common.Desktop
import OmarchyKids.Common.Protocol
import OmarchyKids.Common.Transport
import OmarchyKids.Agentd.Db
import OmarchyKids.Agentd.State
import OmarchyKids.Agentd.Budget
import OmarchyKids.Common.Rfc3339
import OmarchyKids.Agentd.Handlers
import OmarchyKids.Agentd.Daemon
import OmarchyKids.Agentd.Authorisation
import OmarchyKids.Agentd.Persistence
import OmarchyKids.Agentd.Sessions
import OmarchyKids.Agentd.Accounting
import OmarchyKids.Agentd.Replies
import OmarchyKids.Control.AgentClient
import OmarchyKids.Control.PairingDialog
import OmarchyKids.Pairing.AuthorizedKeys
import OmarchyKids.Pairing.Serve
import OmarchyKids.Pairing.Network
import OmarchyKids.Pairing.Agreement
import OmarchyKids.Pairing.Deadline
import OmarchyKids.Lib.Leases
import OmarchyKids.Agentd.Grants
import OmarchyKids.Agentd.Views
import OmarchyKids.Lib.Circle
import OmarchyKids.Agentd.Windows
import OmarchyKids.Agentd.Warnings
import OmarchyKids.Lib.TimedReads
import OmarchyKids.Agentd.Connections
import OmarchyKids.Agentd.Lifecycle
import OmarchyKids.Lib.Sums
import OmarchyKids.Agentd.Restarts
import OmarchyKids.Tiers.SetTier
import OmarchyKids.Pairing.Delivery
import OmarchyKids.Agentd.Cutoffs
import OmarchyKids.Agentd.SessionLog
import OmarchyKids.Lib.LastMatch
import OmarchyKids.Agentd.AuditTrail
import OmarchyKids.Lib.Lines
import OmarchyKids.Pairing.KeyLines
import OmarchyKids.Lib.HighWater
import OmarchyKids.Control.Notifications
import OmarchyKids.Wrapper.Main
import OmarchyKids.Wrapper.Course
import OmarchyKids.Control.PairingOutput
import OmarchyKids.Control.PairingRecord
import OmarchyKids.Control.PairingForgery
import OmarchyKids.Agentd.Limits
import OmarchyKids.Agentd.Queries
import OmarchyKids.Agentd.Reports
import OmarchyKids.Common.Framing
import OmarchyKids.Agent.Main
import OmarchyKids.Control.RemoteCommand
import OmarchyKids.Lib.ShellWords
import OmarchyKids.Lib.KnownHosts
import OmarchyKids.Control.PinnedKey
import OmarchyKids.Lib.JsonText
import OmarchyKids.Control.StatusCache
import OmarchyKids.Control.Outcomes
import OmarchyKids.Common.DesktopGroups
import OmarchyKids.Common.ExecLine
import OmarchyKids.Control.HostStore
import OmarchyKids.Lib.Scripts
import OmarchyKids.SetupWizard.FirstBoot
import OmarchyKids.SetupWizard.Resume
import OmarchyKids.Agentd.Calls
import OmarchyKids.Kiosk.Bookkeeping
import OmarchyKids.Kiosk.Enforcement
import OmarchyKids.Kiosk.TimeUp
import OmarchyKids.Kiosk.Screen
import OmarchyKids.Agent.Override
import OmarchyKids.Lib.JsonCut
import OmarchyKids.Control.BarWidget
import OmarchyKids.Control.Polls
import OmarchyKids.Control.MainWindow
import OmarchyKids.Control.RemoteCalls
import OmarchyKids.Control.Trust
import OmarchyKids.Kiosk.Reach
import OmarchyKids.Agent.Repair
