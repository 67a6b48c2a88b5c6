import VmServer.Library.TransitionSystem
import VmServer.Library.Framing
import VmServer.Library.Contributions
import VmServer.Library.Lease
import VmServer.Library.SlidingWindow
import VmServer.Library.Slice
import VmServer.Library.Routing
import VmServer.Library.Des
import VmServer.Library.Channel
import VmServer.Library.Url
import VmServer.Library.OptionSyntax
import VmServer.Library.Paths
import VmServer.Library.Keyed
import VmServer.Library.Lines
import VmServer.Library.Regex
import VmServer.Library.Utf8
import VmServer.Proxy.Stream
import VmServer.Proxy.Filter
import VmServer.Proxy.ClientProtocol
import VmServer.Proxy.FilterSafety
import VmServer.Proxy.SizeBounds
import VmServer.Proxy.Transparency
import VmServer.Proxy.ClientEncoders
import VmServer.Proxy.Agreement
import VmServer.Proxy.Connection
import VmServer.Proxy.Handshake
import VmServer.Proxy.Fragmentation
import VmServer.Proxy.HandshakeLanguage
import VmServer.Proxy.Splice
import VmServer.Proxy.Sharing
import VmServer.Proxy.Bridge
import VmServer.Proxy.Teardown
import VmServer.Proxy.SocketEnd
import VmServer.Auth.Manager
import VmServer.Auth.Validity
import VmServer.Auth.Sessions
import VmServer.Auth.LoginRace
import VmServer.Auth.Lockout
import VmServer.HttpServer.Controller
import VmServer.HttpServer.Console
import VmServer.HttpServer.Moves
import VmServer.HttpServer.SingleController
import VmServer.HttpServer.SeatSuccession
import VmServer.HttpServer.KillSwitch
import VmServer.HttpServer.DeadSeat
import VmServer.HttpServer.Viewers
import VmServer.HttpServer.Routes
import VmServer.HttpServer.Mediation
import VmServer.HttpServer.LoginRedirect
import VmServer.Config.Sections
import VmServer.Config.Document
import VmServer.Config.RoundTrip
import VmServer.Config.HostnameGrammar
import VmServer.HttpServer.Settings
import VmServer.HttpServer.Persistence
import VmServer.HttpServer.Reload
import VmServer.HttpServer.RunFlags
import VmServer.HttpServer.UserList
import VmServer.HttpServer.Accounts
import VmServer.HttpServer.AddedUsers
import VmServer.HttpServer.LastAdmin
import VmServer.HttpServer.AdminRights
import VmServer.HttpServer.PartialUpdates
import VmServer.Tunnel.Manager
import VmServer.Tunnel.StaleRuns
import VmServer.Tunnel.LiveLink
import VmServer.Tailnet.Manager
import VmServer.Tailnet.Orphans
import VmServer.Tailnet.LastSaved
import VmServer.Tailnet.Status
import VmServer.Tailnet.Exposure
import VmServer.Vm.Manager
import VmServer.Vm.Host
import VmServer.Vm.Effects
import VmServer.Vm.Progress
import VmServer.Vm.OneGuest
import VmServer.Vm.Fallback
import VmServer.Vm.HiddenGuest
import VmServer.Vm.GhostGuest
import VmServer.Vm.CleanExit
import VmServer.Vm.StopIntent
import VmServer.Vm.Operations
import VmServer.Vm.FailedShutdown
import VmServer.Vm.Handles
import VmServer.Vm.CommandLine
import VmServer.Vm.DiskPaths
import VmServer.Vm.Qmp
import VmServer.Vm.QmpOwnership
import VmServer.Vm.QmpReplies
import VmServer.Vm.QmpLoss
import VmServer.Vm.PendingMap
import VmServer.Vm.QmpTraffic
import VmServer.Vm.LogRing
import VmServer.Vm.LogJournal
import VmServer.Vm.SnapshotList
import VmServer.Web.Console
import VmServer.Web.OneConnection
import VmServer.Web.InputMode
import VmServer.Novnc.SendQueue
import VmServer.Proxy.Delivery
import VmServer.Library.Resumable
import VmServer.Novnc.Decoders
import VmServer.Novnc.Hextile
import VmServer.Novnc.Zrle
import VmServer.Novnc.Tight
import VmServer.Novnc.Jpeg
import VmServer.Novnc.Drawn
import VmServer.Novnc.Client
import VmServer.Novnc.ServerMessages
import VmServer.Novnc.MessageLoop
import VmServer.Novnc.Arrival
import VmServer.Novnc.Updates
import VmServer.Novnc.Keyboard
import VmServer.Novnc.HeldKeys
import VmServer.Novnc.Pointer
import VmServer.Novnc.PointerSync
import VmServer.Novnc.ReceiveQueue
import VmServer.Novnc.Negotiation
import VmServer.Novnc.Connects
import VmServer.Novnc.Display
import VmServer.Novnc.Base64
