import NanoClaw.Queue.GroupQueue
import NanoClaw.Queue.Slots
import NanoClaw.Queue.Invariant
import NanoClaw.Queue.Moves
import NanoClaw.Queue.Safety
import NanoClaw.Queue.Wakeup
import NanoClaw.Library.PyText
import NanoClaw.Library.Url
import NanoClaw.Library.Dict
import NanoClaw.Proxy.CredentialProxy
import NanoClaw.Proxy.Upstream
import NanoClaw.Library.Json
import NanoClaw.Library.Cut
import NanoClaw.Library.JsonRoundTrip
import NanoClaw.Library.JsonLiterals
import NanoClaw.Library.JsonDecoded
import NanoClaw.Library.JsonLayout
import NanoClaw.Library.JsonLoads
import NanoClaw.Agent.Framing
import NanoClaw.Agent.FrameText
import NanoClaw.Agent.Leftover
import NanoClaw.Agent.RoundTrip
import NanoClaw.Library.Calendar
import NanoClaw.Library.IsoFormat
import NanoClaw.Messages.Timezone
import NanoClaw.Store.Messages
import NanoClaw.Messages.Router
import NanoClaw.Channels.Inbound
import NanoClaw.App.State
import NanoClaw.App.World
import NanoClaw.App.Prompt
import NanoClaw.App.Cursor
import NanoClaw.Library.Table
import NanoClaw.Library.IsoText
import NanoClaw.Store.Tasks
import NanoClaw.Ipc.Watcher
import NanoClaw.Ipc.Isolation
import NanoClaw.Ipc.Fatal
import NanoClaw.Ipc.Survival
import NanoClaw.Queue.Held
import NanoClaw.Tasks.NextRun
import NanoClaw.Library.CalendarFacts
import NanoClaw.Tasks.Scheduler
import NanoClaw.Tasks.Board
import NanoClaw.Tasks.Occurrence
import NanoClaw.Tasks.Paused
import NanoClaw.Queue.Retry
import NanoClaw.Queue.Termination
import NanoClaw.Queue.Order
import NanoClaw.Queue.Idle
import NanoClaw.App.Restart
import NanoClaw.App.Answered
import NanoClaw.App.Policy
import NanoClaw.App.Reload
import NanoClaw.Tasks.FirstRun
import NanoClaw.Queue.Quiet
import NanoClaw.Agent.Runner
import NanoClaw.Agent.Handshake
import NanoClaw.Queue.Shutdown
import NanoClaw.Channels.Ownership
import NanoClaw.Store.Chats
import NanoClaw.App.Snapshots
import NanoClaw.App.Callbacks
import NanoClaw.App.Inbox
import NanoClaw.App.Delivery
import NanoClaw.App.WebhookServer
import NanoClaw.Tasks.Life
import NanoClaw.Tasks.History
import NanoClaw.Library.IsoOrder
import NanoClaw.Store.Stamps
import NanoClaw.Ipc.Tools
import NanoClaw.Ipc.Written
import NanoClaw.Ipc.Acknowledged
import NanoClaw.Agent.Noise
import NanoClaw.Messages.Markup
import NanoClaw.Messages.Tags
import NanoClaw.Messages.Internal
import NanoClaw.Library.Latest
import NanoClaw.Store.MessageRows
import NanoClaw.App.Recovery
import NanoClaw.Library.IsoRoundTrip
import NanoClaw.Library.Grid
import NanoClaw.Tasks.Interval
import NanoClaw.Tasks.Recorded
import NanoClaw.Tasks.Retired
import NanoClaw.App.Live
import NanoClaw.App.LiveInstallation
import NanoClaw.App.Commit
import NanoClaw.Library.PosixPath
import NanoClaw.Library.TextFile
import NanoClaw.Library.Each
import NanoClaw.Agent.Malformed
import NanoClaw.Store.Metadata
import NanoClaw.Store.Lookup
import NanoClaw.App.Register
import NanoClaw.Mounts.Security
import NanoClaw.Mounts.Sound
import NanoClaw.Senders.Allowlist
import NanoClaw.Senders.Cache
import NanoClaw.App.Scheduled
import NanoClaw.App.Throttle
import NanoClaw.Senders.Policy
import NanoClaw.Library.Spool
import NanoClaw.Queue.Unstarted
import NanoClaw.Tasks.ZoneNames
import NanoClaw.Ipc.Served
import NanoClaw.Ipc.Input
import NanoClaw.Ipc.Mcp
import NanoClaw.Proxy.Relay
import NanoClaw.Ipc.InputSpool
import NanoClaw.Ipc.InputNumbers
import NanoClaw.Ipc.InputOnce
import NanoClaw.Library.Inbox
import NanoClaw.Ipc.Requests
import NanoClaw.Ipc.Intake
import NanoClaw.App.Listed
import NanoClaw.Library.Shlex
import NanoClaw.Agent.Runtime
import NanoClaw.Agent.Container
import NanoClaw.Agent.OneShot
import NanoClaw.App.Conversation
import NanoClaw.App.Sessions
import NanoClaw.App.TaskRuns
import NanoClaw.Queue.Waiting
import NanoClaw.Queue.Awake
import NanoClaw.App.Service
import NanoClaw.Queue.Paths
import NanoClaw.App.Rest
import NanoClaw.App.Crash
import NanoClaw.Tasks.Due
import NanoClaw.Tasks.Asked
