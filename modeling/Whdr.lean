import Whdr.Delivery.CursorSound
import Whdr.Delivery.Restarts
import Whdr.Server.Handoff
import Whdr.Server.Reopen
import Whdr.Server.Replay
import Whdr.Server.Stamping
import Whdr.Server.ChannelClaims
import Whdr.Server.Lifecycle
import Whdr.Server.Exclusivity
import Whdr.Server.TokenAtomicity
import Whdr.Server.Revocation
import Whdr.Server.TokenText
import Whdr.Server.TokenHistory
import Whdr.Server.Dispatch
import Whdr.Server.FanoutOnce
import Whdr.Server.QueueCalls
import Whdr.Server.LagReport
import Whdr.Server.RegistryHistory
import Whdr.Proto.Ndjson
import Whdr.SubKit.SubscribeFrames
import Whdr.SubKit.Stream
import Whdr.SubKit.KitsAgree
import Whdr.Ext.Unauthenticated
import Whdr.Server.LiveReplay
import Whdr.Server.LogInvariant
import Whdr.Server.DispatchWindow
import Whdr.Server.WindowRuns
import Whdr.Lib.FairLocks
import Whdr.Lib.LockRuns
import Whdr.Server.Drain
import Whdr.Server.ReloadCommands
import Whdr.Server.Routing
import Whdr.Server.TableLocks
import Whdr.Server.CircularWait
import Whdr.Server.Daemon
import Whdr.Server.DaemonSteps
import Whdr.Server.ReadyFailed
import Whdr.Server.Convergence
import Whdr.Server.Removal
import Whdr.Server.Metrics
import Whdr.Server.MetricsRuns
import Whdr.Proto.Grammar
import Whdr.Server.Namespaces
import Whdr.Server.Prune
import Whdr.Server.Respawn
import Whdr.Server.HangKill
import Whdr.SubKit.Handling
import Whdr.Ext.TeamsChannels
import Whdr.Ext.Echo
import Whdr.Ext.Signing
import Whdr.Ext.Mount
import Whdr.Ext.GithubEvents
import Whdr.SubKit.Hooks
import Whdr.SubKit.OCamlSeqs
import Whdr.Lib.BigEndian
import Whdr.SubKit.WsFrames
import Whdr.SubKit.Fragments
import Whdr.Lib.PromText
import Whdr.Server.MetricsText
import Whdr.SubKit.EventQueue
import Whdr.Delivery.KitSound
import Whdr.Delivery.CatchUp
import Whdr.SubKit.LaterServer
import Whdr.Ingest.Genuine
import Whdr.Ingest.Served
import Whdr.Delivery.EndToEnd
import Whdr.Server.SocketSound
