import Lonesome.Text
import Lonesome.Http
import Lonesome.Lib.Interleaving
import Lonesome.Lib.History
import Lonesome.Lib.Trace
import Lonesome.Lib.Effects
import Lonesome.Lib.KeyedSet
import Lonesome.Lib.SortedMap
import Lonesome.Lib.Distinct
import Lonesome.Matcher.CelCommon
import Lonesome.Matcher.Precheck.Expr
import Lonesome.Matcher.Precheck.Cel
import Lonesome.Matcher.Matcher
import Lonesome.Matcher.CelSessionContext
import Lonesome.Matcher.CelScope
import Lonesome.Matcher.RuleEval
import Lonesome.Route.RouteTable
import Lonesome.Upstream.Health
import Lonesome.Upstream.LoadBalancer
import Lonesome.Upstream.Coverage
import Lonesome.Server.CertStore
import Lonesome.Server.CertHosts
import Lonesome.Server.ErrorPageStore
import Lonesome.Server.StatusSpec
import Lonesome.Server.Lifecycle
import Lonesome.Proxy.SniHost
import Lonesome.Proxy.Session
import Lonesome.Middlewares.Config
import Lonesome.Proxy.Ctx
import Lonesome.Proxy.Response
import Lonesome.Bindings.ErrorPage
import Lonesome.Middlewares.Auth
import Lonesome.Middlewares.JwtGate
import Lonesome.Middlewares.AccessLogSink
import Lonesome.Middlewares.Cache
import Lonesome.Middlewares.CachePurge
import Lonesome.Middlewares.CacheFilters
import Lonesome.Middlewares.SettingsRange
import Lonesome.Middlewares.Observe
import Lonesome.Middlewares.AccessLogLine
import Lonesome.Proxy.CacheRuns
import Lonesome.Middlewares.RateLimit
import Lonesome.Middlewares.Respond
import Lonesome.Proxy.PortStripping
import Lonesome.Middlewares.Rewrite
import Lonesome.Proxy.Proxy
import Lonesome.Proxy.CelStability
import Lonesome.Proxy.JwtExposure
import Lonesome.Proxy.Refinement
import Lonesome.Proxy.HostRouting
import Lonesome.Proxy.ErrorPageFraming
import Lonesome.Proxy.PeerSelection
import Lonesome.Interceptor.Registry
import Lonesome.VirtualJs.Socket
import Lonesome.VirtualJs.Registry
import Lonesome.Upstream.Peer
import Lonesome.Bindings.UpstreamConfig
import Lonesome.VirtualJs.ConnectionFlow
import Lonesome.VirtualJs.NoOrphans
import Lonesome.VirtualJs.Removal
import Lonesome.VirtualJs.SocketLifetime
import Lonesome.VirtualJs.Registration
import Lonesome.VirtualJs.Reader
import Lonesome.VirtualJs.Streams
import Lonesome.VirtualJs.StreamEvents
import Lonesome.VirtualJs.StreamEnd
import Lonesome.Proxy.Turns
import Lonesome.Proxy.Frames
import Lonesome.Proxy.Answer
import Lonesome.Lib.CopyOnWrite
import Lonesome.Bindings.RouteConfig
import Lonesome.Bindings.ControlPlane
import Lonesome.Proxy.Gates
import Lonesome.Proxy.HeaderPipeline
import Lonesome.Proxy.Retries
import Lonesome.Proxy.RequestLine
import Lonesome.Lib.Memo
import Lonesome.Matcher.CelRegex
import Lonesome.Server.Handshake
