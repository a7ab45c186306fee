import Lagos.Lib.Run
import Lagos.Lib.RustStd
import Lagos.Lib.Percent
import Lagos.Lib.Segments
import Lagos.Lib.Trie
import Lagos.Lib.FirstMatch
import Lagos.Lib.Overwrite
import Lagos.Lib.Visits
import Lagos.Lib.Objects
import Lagos.Lib.MultiMap
import Lagos.Lib.Framing
import Lagos.Lib.IpText
import Lagos.Breaker
import Lagos.BreakerRun
import Lagos.ProxyCircuit
import Lagos.Path
import Lagos.Host
import Lagos.Config
import Lagos.Routes
import Lagos.RoutesMatch
import Lagos.RoutesValidate
import Lagos.RoutesDeny
import Lagos.UpstreamUri
import Lagos.CacheStorage
import Lagos.CacheRevalidation
import Lagos.CacheFill
import Lagos.RateLimit
import Lagos.SharedCounters
import Lagos.Cluster
import Lagos.ClusterReplica
import Lagos.ClusterRun
import Lagos.ClusterConverge
import Lagos.SingleWriter
import Lagos.SyncIsolation
import Lagos.Limiter
import Lagos.SharedRoutes
import Lagos.ReloadQuota
import Lagos.Reloader
import Lagos.ReloaderRun
import Lagos.Error
import Lagos.Headers
import Lagos.Trace
import Lagos.Identity
import Lagos.Cookies
import Lagos.GatewayConfig
import Lagos.Gateway
import Lagos.HeaderPolicy
import Lagos.Allowlist
import Lagos.HeaderReads
import Lagos.OwnedHeaders
import Lagos.MachineTier
import Lagos.Cors
import Lagos.RequestFilter
import Lagos.Refusals
import Lagos.InternalListener
import Lagos.CacheKeys
import Lagos.AdmissionKeys
import Lagos.TrustedProxies
import Lagos.Interpolate
import Lagos.TokenCookies
import Lagos.MachineAuth
import Lagos.Jwks
import Lagos.JwksRun
import Lagos.JwksStale
import Lagos.JwksFetch
import Lagos.Tokens
import Lagos.TokenAlgorithms
import Lagos.TokenTenant
import Lagos.Retry
import Lagos.RetryBudget
import Lagos.BodyLimit
import Lagos.BodyFraming
import Lagos.Discovery
import Lagos.PolicyTest
import Lagos.PolicyDiff
import Lagos.CacheBody
import Lagos.Lib.TimeSlots
import Lagos.ExactLimiter
import Lagos.Lib.Eviction
import Lagos.IdleEviction
import Lagos.SharedQuota
import Lagos.Lib.WorkList
import Lagos.SyncPass
import Lagos.BreakerOpening
import Lagos.Concurrency
import Lagos.ConcurrencyRun
import Lagos.Lib.Markers
import Lagos.Inspection
import Lagos.InspectionAgrees
import Lagos.Exchange
import Lagos.ExpansionLines
import Lagos.Lib.YamlLine
import Lagos.CommentStart
import Lagos.QueryBinding
import Lagos.CookieStripping
import Lagos.ClientAddress
import Lagos.Lib.UriHost
import Lagos.HostReach
import Lagos.CorsCaching
import Lagos.CookieProtection
import Lagos.ClaimHeaders
import Lagos.Lib.Permits
import Lagos.Extensions
import Lagos.ExtensionsRun
import Lagos.PlanCalls
import Lagos.Lib.Asking
import Lagos.Pipeline
import Lagos.Mediation
import Lagos.Consults
import Lagos.FloodProtection
import Lagos.Lib.EditDistance
import Lagos.Suggestion
import Lagos.Expiry
import Lagos.CacheSharing
import Lagos.Failover
import Lagos.Inventory
import Lagos.Redaction
import Lagos.Explain
import Lagos.ClientKeys
import Lagos.SpanExport
import Lagos.TraceChain
import Lagos.BackendUrl
import Lagos.ConnectionLimit
import Lagos.ServerVendor
