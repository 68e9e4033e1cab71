import Vproxy.Runs
import Vproxy.BoundedMap
import Vproxy.Words
import Vproxy.Mailslots
import Vproxy.CyclicSlots
import Vproxy.Slices
import Vproxy.DnsNames
import Vproxy.Readers
import Vproxy.LineReader
import Vproxy.Strings
import Vproxy.HttpHeads
import Vproxy.HttpResponses
import Vproxy.NetAddr
import Vproxy.AddrNumbers
import Vproxy.FakeIp
import Vproxy.FakeIpOrder
import Vproxy.DnsQuery
import Vproxy.DnsAnswers
import Vproxy.Redirect
import Vproxy.UdpRedirect
import Vproxy.TcpRedirect
import Vproxy.Urls
import Vproxy.JsStrings
import Vproxy.Json
import Vproxy.JsonText
import Vproxy.JsonFields
import Vproxy.Utf8
import Vproxy.ServerManager
import Vproxy.AddrText
import Vproxy.Router
import Vproxy.RuleEntries
import Vproxy.RouterReference
import Vproxy.DomainRules
import Vproxy.RemoteLans
import Vproxy.TypedRules
import Vproxy.RuleItems
import Vproxy.ShellWords
import Vproxy.CurlCommand
import Vproxy.KernelBypass
import Vproxy.OrigDstRecord
import Vproxy.Regexes
import Vproxy.GreedyRows
import Vproxy.Captures
import Vproxy.Templates
import Vproxy.Rewrite
import Vproxy.RewriteIndex
import Vproxy.WildcardGlobs
import Vproxy.Netip
import Vproxy.PhysicalRoutes
import Vproxy.BypassRoutes
import Vproxy.PathAppend
import Vproxy.RegexHosts
import Vproxy.Ledger
import Vproxy.CidrBypass
import Vproxy.TcWhitelist
import Vproxy.CaptureTexts
import Vproxy.OnesComplement
import Vproxy.Icmp
import Vproxy.IcmpReplies
import Vproxy.LineScanner
import Vproxy.SocketTables
import Vproxy.ProcAttribution
import Vproxy.CaptureTargets
import Vproxy.Handler
import Vproxy.HotReload
import Vproxy.WrappedCommand
import Vproxy.ConfigFile
import Vproxy.SharedFile
import Vproxy.ConfigWriters
import Vproxy.Framing
import Vproxy.MitmLoop
import Vproxy.ResponseFraming
import Vproxy.Dial
import Vproxy.Ingress
import Vproxy.UrlRules
import Vproxy.BlockPolicy
import Vproxy.ProcessMetadata
import Vproxy.RelayDetector
import Vproxy.SelfUpstream
import Vproxy.ProbeAndDial
import Vproxy.Retries
import Vproxy.PlainRewrites
import Vproxy.FakeIpRestore
import Vproxy.FakeIpLease
import Vproxy.DirectDials
import Vproxy.RemoteTproxy
import Vproxy.Duplex
import Vproxy.Socks
import Vproxy.SocksConnect
import Vproxy.SocksGrammar
import Vproxy.SocksServer
import Vproxy.SocksUdp
import Vproxy.Peeking
import Vproxy.ConnectHead
import Vproxy.ClientHello
import Vproxy.SelfLoops
import Vproxy.Netfilter
import Vproxy.Iptables
import Vproxy.IptablesHistory
import Vproxy.ScriptCrowds
import Vproxy.RuleCrowds
import Vproxy.Interception
import Vproxy.SelfHeal
import Vproxy.Wrapper
import Vproxy.OwnDials
import Vproxy.Relay
import Vproxy.TrafficCounters
import Vproxy.RawFallback
import Vproxy.Floats
import Vproxy.Handover
import Vproxy.Handles
import Vproxy.UdpSessions
import Vproxy.SwapLoops
import Vproxy.UdpDropLog
import Vproxy.Otel
import Vproxy.OtelRuns
import Vproxy.OtelShutdown
import Vproxy.ReloadSteps
import Vproxy.OtelForward
import Vproxy.Generations
import Vproxy.RotatingWriter
import Vproxy.FailingRotation
import Vproxy.IpcServer
import Vproxy.SocketList
import Vproxy.TunStack
