import AppGate.Lib.Machine
import AppGate.Lib.Transducer
import AppGate.Lib.Counting
import AppGate.Lib.Reflected
import AppGate.Lib.Binary64
import AppGate.Lib.Redis
import AppGate.Lib.Slice
import AppGate.Lib.Text
import AppGate.Lib.Regexp
import AppGate.Lib.Utf8
import AppGate.Lib.Strings
import AppGate.Lib.Mask
import AppGate.Lib.Places
import AppGate.Lib.Split
import AppGate.Lib.Uri
import AppGate.Lib.Ip
import AppGate.Lib.NetHttp
import AppGate.Lib.Fallible
import AppGate.Lib.Json
import AppGate.Lib.JsonData
import AppGate.Lib.JsonRaw
import AppGate.Lib.Serde
import AppGate.Lib.Base64
import AppGate.Lib.Jwt
import AppGate.Lib.GoStruct
import AppGate.Lib.GoJwt
import AppGate.Lib.Sql
import AppGate.Lib.Envy
import AppGate.Breaker.Recovery
import AppGate.Breaker.Leaky
import AppGate.Breaker.Lockout
import AppGate.Breaker.Registry
import AppGate.Policy.Agree
import AppGate.Policy.Restrict
import AppGate.Policy.Wire
import AppGate.Policy.Refresh
import AppGate.Policy.Distribution
import AppGate.Server.Shutdown
import AppGate.Server.Connections
import AppGate.Server.Proxy
import AppGate.Server.Routes
import AppGate.Server.Health
import AppGate.Server.Upstream
import AppGate.Server.ErrorBody
import AppGate.Server.Answers
import AppGate.Server.Startup
import AppGate.Ssrf.Gaps
import AppGate.Ssrf.Labels
import AppGate.Store.Watch
import AppGate.Store.Channel
import AppGate.Store.Migrate
import AppGate.Leader.Flag
import AppGate.Leader.Writers
import AppGate.Leader.Health
import AppGate.Leader.Liveness
import AppGate.Api.Decoder
import AppGate.Api.Register
import AppGate.RateLimit.ControlPlane
import AppGate.RateLimit.Proxy
import AppGate.RateLimit.FixedWindow
import AppGate.RateLimit.Isolation
import AppGate.RateLimit.Concurrent
import AppGate.RateLimit.Sliding
import AppGate.RateLimit.Monotone
import AppGate.Audit.Logger
import AppGate.Audit.Delivery
import AppGate.Audit.Ingest
import AppGate.Audit.Storage
import AppGate.Proxy.Handler
import AppGate.Proxy.Access
import AppGate.Proxy.Limits
import AppGate.Proxy.Codec
import AppGate.Proxy.Body
import AppGate.Proxy.Tokens
import AppGate.Proxy.Enforcement
import AppGate.Auth.Issuer
import AppGate.Auth.Validate
import AppGate.Auth.Acceptance
import AppGate.Auth.GoClaims
import AppGate.Auth.Service
import AppGate.Prompt.Engine
import AppGate.Prompt.Inspect
import AppGate.Prompt.Redact
import AppGate.Prompt.Complete
