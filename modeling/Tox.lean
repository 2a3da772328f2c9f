import Tox.Foundation.GoMap
import Tox.Foundation.Run
import Tox.Foundation.Amounts
import Tox.Foundation.Stream
import Tox.Foundation.Join
import Tox.Foundation.LastMatch
import Tox.Foundation.Outcome
import Tox.Foundation.PointerMap
import Tox.Foundation.Scanner
import Tox.Foundation.Slice
import Tox.Foundation.Loop
import Tox.Foundation.JsonGrammar
import Tox.Common.Format
import Tox.Common.Counter
import Tox.Common.Json5
import Tox.Common.Json5Scan
import Tox.Common.Json5Reference
import Tox.Common.Json5Bounds
import Tox.Common.Json5Strict
import Tox.Panel.Client
import Tox.Panel.Node
import Tox.Panel.Validators
import Tox.Panel.Translation
import Tox.Panel.WireForms
import Tox.Panel.Protocols
import Tox.Panel.Atoi
import Tox.Conf.Options
import Tox.Limiter.Basic
import Tox.Limiter.Registry
import Tox.Limiter.Rules
import Tox.Node.Report
import Tox.Node.UserDelta
import Tox.Node.Controller
import Tox.Node.Reload
import Tox.Node.SettingsUpdate
import Tox.Node.UserSync
import Tox.Node.UserUpdate
import Tox.Core.Traffic
import Tox.Core.Interleaving
import Tox.Core.Isolation
import Tox.Core.Sing
import Tox.Core.SingIsolation
import Tox.Core.Xray
import Tox.Core.XrayIsolation
import Tox.Core.Mieru
import Tox.Core.MieruIsolation
import Tox.Core.MieruPacket
import Tox.Core.MieruParse
import Tox.Core.MieruReload
import Tox.Core.MieruConns
import Tox.Core.FirstUse
import Tox.Core.Interface
import Tox.Common.Task
import Tox.Foundation.Mutex
import Tox.Node.Tasks
import Tox.Node.Service
import Tox.Vless.Protocol
import Tox.Foundation.Decoder
import Tox.Vless.Service
import Tox.Vless.Header
import Tox.Vmess.Service
import Tox.Cmd.Server
import Tox.Limiter.Calls
import Tox.Limiter.Online
import Tox.Limiter.Dynamic
import Tox.Limiter.Concurrent
import Tox.Limiter.Interleaving
import Tox.Limiter.Representation
import Tox.Limiter.Buckets
import Tox.Transport.Grpc
import Tox.Core.SingHook
import Tox.Core.Selector
import Tox.Core.SelectorOrder
import Tox.Core.XrayInbound
import Tox.Core.XrayDns
import Tox.Core.SingInbound
import Tox.Core.SingPorts
import Tox.Core.Resolution
import Tox.Node.Intervals
import Tox.Node.Lifecycle
import Tox.Node.Metering
import Tox.Node.CarryOver
import Tox.Node.AliveReport
import Tox.Node.WholeReport
import Tox.Node.SpeedChange
import Tox.Inbound.Tracking
import Tox.Inbound.Positions
import Tox.Inbound.UidRegistry
import Tox.Foundation.JsonText
import Tox.Foundation.Debounce
import Tox.Common.Conn
import Tox.Core.HookRules
import Tox.Core.XrayUsers
import Tox.Core.XrayLinks
import Tox.Core.SingUsers
import Tox.Core.XrayDnsOrder
import Tox.Dispatcher.CachedReader
import Tox.Dispatcher.Sniffer
import Tox.Dispatcher.Links
import Tox.Cmd.Watch
