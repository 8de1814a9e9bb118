import Featherbit.Lib.Loop
import Featherbit.Lib.Walk
import Featherbit.Lib.Split
import Featherbit.Lib.Keyed
import Featherbit.Lib.TryFold
import Featherbit.Lib.Interleave
import Featherbit.Lib.PrefixRange
import Featherbit.Rust.Std
import Featherbit.Json
import Featherbit.Context
import Featherbit.Config.Gateway
import Featherbit.Config.Loader
import Featherbit.Plugins
import Featherbit.Graph.Validation
import Featherbit.Rust.Utf8
import Featherbit.Debug.Trace
import Featherbit.Debug.Recorder
import Featherbit.Graph.Engine
import Featherbit.Graph.Visit
import Featherbit.Graph.Compiled
import Featherbit.Graph.WalkGraph
import Featherbit.Graph.Lookups
import Featherbit.Graph.Termination
import Featherbit.Graph.Wiring
import Featherbit.Graph.Tracing
import Featherbit.Consumers
import Featherbit.Routing
import Featherbit.State
import Featherbit.Admin.Handlers
import Featherbit.Admin.PolicyUpdate
import Featherbit.State.Calls
import Featherbit.Admin.LostUpdate
import Featherbit.ConfigStore.Etcd
import Featherbit.ConfigStore.Commit
import Featherbit.ConfigStore.Watch
import Featherbit.ConfigStore.Delivery
import Featherbit.Lib.Wire
import Featherbit.Stream.Sni
import Featherbit.Stream.ClientHello
import Featherbit.Stream.Stability
import Featherbit.Stream.Overrun
import Featherbit.Stream.Tcp
import Featherbit.Lib.Cells
import Featherbit.RateLimit.CounterStore
import Featherbit.RateLimit.FixedWindow
import Featherbit.Vars
import Featherbit.Plugins.LimitCount
import Featherbit.RateLimit.Isolation
import Featherbit.Traffic.Breaker
import Featherbit.Lib.Multimap
import Featherbit.Lib.UriRef
import Featherbit.Outbound
import Featherbit.Context.FromHyper
import Featherbit.Plugins.Upstream
import Featherbit.Server.Listener
import Featherbit.Lib.Census
import Featherbit.Plugins.Pair
import Featherbit.Plugins.LimitConn
import Featherbit.Traffic.ConnSlots
import Featherbit.Plugins.ApiBreaker
import Featherbit.Traffic.HalfOpen
import Featherbit.Traffic.Cache
import Featherbit.Plugins.ProxyCache
import Featherbit.Batch.Delivery
import Featherbit.Debug.Store
import Featherbit.Plugins.AttachConsumerLabel
import Featherbit.Consumers.Identity
import Featherbit.Debug.NonInterference
import Featherbit.Rust.Serde
import Featherbit.Debug.Replay
import Featherbit.Consumers.Index
import Featherbit.Debug.Synthesize
import Featherbit.Config.Idempotence
import Featherbit.Json.Text
import Featherbit.Plugins.Csrf
import Featherbit.Plugins.HmacAuth
import Featherbit.Plugins.HmacCoverage
import Featherbit.Json.Path
import Featherbit.Plugins.DataMask
import Featherbit.Plugins.Script
import Featherbit.Server.Response
import Featherbit.Json.Struct
import Featherbit.Lib.Task
import Featherbit.Plugins.CookieSession
import Featherbit.Plugins.OpenidConnect
import Featherbit.Plugins.OidcRun
import Featherbit.Plugins.OidcLogin
import Featherbit.Traffic.ConnPairs
import Featherbit.HotReload
import Featherbit.Plugins.ConsumerRestriction
import Featherbit.Plugins.OidcIdentity
import Featherbit.Plugins.AuthNodes
import Featherbit.Plugins.MultiAuth
import Featherbit.Graph.Editor
import Featherbit.Rust.IpAddr
import Featherbit.Plugins.IpRestriction
import Featherbit.Plugins.ExternalAuth
import Featherbit.Batch.Limits
import Featherbit.Batch.Retry
import Featherbit.Batch.Sink
import Featherbit.Debug.Diff
import Featherbit.Debug.Sandbox
import Featherbit.Graph.Endpoint
import Featherbit.Lib.Refill
import Featherbit.Plugins.OidcReturn
import Featherbit.Plugins.RateLimit
import Featherbit.RateLimit.ClientKey
import Featherbit.RateLimit.TokenBucket
import Featherbit.Rust.Base64
import Featherbit.Rust.Jsonwebtoken
import Featherbit.Rust.Mlua
import Featherbit.Rust.ParseInt
import Featherbit.Rust.Ring
import Featherbit.Rust.SocketAddr
import Featherbit.Rust.Time
import Featherbit.Traffic.Balancer
import Featherbit.Traffic.Cooldown
import Featherbit.Debug.Capture
import Featherbit.Rust.Utf8Prefix
import Featherbit.Stream.Udp
import Featherbit.Stream.UdpSessions
import Featherbit.Stream.UdpMoves
import Featherbit.Plugins.QuotaHeaders
import Featherbit.Plugins.ResponseHeaders
import Featherbit.Lib.CyclicCount
import Featherbit.Plugins.TrafficSplit
import Featherbit.Traffic.RoundRobin
import Featherbit.Plugins.ProxyRewrite
import Featherbit.Routing.Patterns
import Featherbit.Stream.SniRoutes
import Featherbit.Vars.Template
import Featherbit.Plugins.RealIp
import Featherbit.Plugins.ClientAddress
import Featherbit.Plugins.CookieLookup
import Featherbit.Plugins.LogEntry
import Featherbit.Rust.IpCut
import Featherbit.Context.Query
import Featherbit.Vars.Expr
import Featherbit.Vars.QueryString
import Featherbit.Vars.FormDecode
import Featherbit.Plugins.Redirect
import Featherbit.Plugins.OidcAuthorize
import Featherbit.Plugins.CacheKey
import Featherbit.Lib.Civil
import Featherbit.Lib.JsonGrammar
import Featherbit.Lib.TextSearch
import Featherbit.Rust.Float
import Featherbit.Rust.F64
import Featherbit.Rust.Fmt
import Featherbit.Rust.I64
import Featherbit.Rust.IpNet
import Featherbit.Rust.Regex
import Featherbit.Rust.Uri
import Featherbit.Plugins.Compression
import Featherbit.Plugins.CasAuth
import Featherbit.Plugins.CasUser
import Featherbit.Plugins.Rejections
import Featherbit.Plugins.ResponseRewrite
import Featherbit.Vars.SortedQuery
import Featherbit.Plugins.Faas
import Featherbit.Plugins.AwsLambda
import Featherbit.Plugins.LogDate
import Featherbit.Plugins.HttpDate
import Featherbit.Plugins.CsrfHex
import Featherbit.Lib.Fault
import Featherbit.Stream.SniBounds
import Featherbit.Plugins.RefererRestriction
import Featherbit.Plugins.BodyTransformer
import Featherbit.Lib.DistinguishedName
import Featherbit.Plugins.LdapAuth
import Featherbit.Plugins.AuthzCasdoor
import Featherbit.Plugins.AuthCodes
import Featherbit.Lib.LineProtocol
import Featherbit.Plugins.Syslog
import Featherbit.Plugins.Datadog
import Featherbit.Lib.Placeholders
import Featherbit.Lib.JsonTemplate
import Featherbit.Plugins.ErrorHandler
import Featherbit.Plugins.FaultInjection
import Featherbit.Plugins.CookiePath
import Featherbit.Vars.PercentCodec
import Featherbit.Plugins.CidrShift
import Featherbit.Plugins.TraceContext
import Featherbit.Plugins.FormBody
import Featherbit.Lib.SineTable
import Featherbit.Lib.Md5
import Featherbit.Plugins.SlsMd5
import Featherbit.Lib.LastMax
import Featherbit.Plugins.OasValidator
import Featherbit.Plugins.OasContract
import Featherbit.Debug.Pipeline
import Featherbit.Debug.SandboxRun
import Featherbit.Lib.Courier
import Featherbit.Batch.Failures
import Featherbit.Plugins.Workflow
import Featherbit.Server.Serving
import Featherbit.Server.WebSocket
import Featherbit.Server.Debugging
import Featherbit.Batch.Shippers
