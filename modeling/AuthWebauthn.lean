import AuthWebauthn.Process.Program
import AuthWebauthn.Process.Pool
import AuthWebauthn.Process.History
import AuthWebauthn.Process.Always
import AuthWebauthn.Data.Decimal
import AuthWebauthn.Data.Slots
import AuthWebauthn.Data.Catalog
import AuthWebauthn.Ngx
import AuthWebauthn.Redis.Server
import AuthWebauthn.Redis.Client
import AuthWebauthn.Redis.Keys
import AuthWebauthn.Redis.Effects
import AuthWebauthn.Credential.Record
import AuthWebauthn.Credential.Codec
import AuthWebauthn.Credential.Store
import AuthWebauthn.Credential.Index
import AuthWebauthn.Credential.Recovery
import AuthWebauthn.Challenge
import AuthWebauthn.Conf.LocConf
import AuthWebauthn.Data.Base64url
import AuthWebauthn.Externals
import AuthWebauthn.Verify.Assertion
import AuthWebauthn.Verify.Handler
import AuthWebauthn.ChallengeHandler
import AuthWebauthn.Verify.Stages
import AuthWebauthn.System.Deployment
import AuthWebauthn.Process.Matching
import AuthWebauthn.System.Challenges
import AuthWebauthn.System.Agreement
import AuthWebauthn.System.Completeness
import AuthWebauthn.Data.Counter
import AuthWebauthn.System.Counters
import AuthWebauthn.Data.Json
import AuthWebauthn.System.Sample
import AuthWebauthn.Conf.Merge
import AuthWebauthn.Data.Inheritance
import AuthWebauthn.Conf.KeyCoherence
import AuthWebauthn.Gate.Handler
import AuthWebauthn.Gate.Headers
import AuthWebauthn.Gate.Session
import AuthWebauthn.Credential.RoundTrip
import AuthWebauthn.System.Serial
import AuthWebauthn.System.Oracle
import AuthWebauthn.Gate.Soundness
import AuthWebauthn.Data.FixedWindow
import AuthWebauthn.System.RateLimit
import AuthWebauthn.Register.Cose
import AuthWebauthn.Register.KeyForm
import AuthWebauthn.Register.KeyExact
import AuthWebauthn.Register.Attestation
import AuthWebauthn.Register.Policy
import AuthWebauthn.Register.Compat
import AuthWebauthn.Register.Command
import AuthWebauthn.Register.KeyAgreement
import AuthWebauthn.Data.Buffer
import AuthWebauthn.Register.Decoder
import AuthWebauthn.Verify.Authdata
import AuthWebauthn.Data.Stdio
import AuthWebauthn.Register.ReadFile
import AuthWebauthn.Conf.RateLimit
import AuthWebauthn.Conf.LimitAsUnit
import AuthWebauthn.ChallengeResponse
import AuthWebauthn.System.Lifetimes
import AuthWebauthn.ChallengeTtl
import AuthWebauthn.Formatting
import AuthWebauthn.Redis.Script
import AuthWebauthn.Redis.KeySpace
import AuthWebauthn.Data.JsonTokens
import AuthWebauthn.Verify.Escaping
import AuthWebauthn.Credential.Numbers
import AuthWebauthn.Register.Accumulator
import AuthWebauthn.Admin.Pool
import AuthWebauthn.Admin.PoolRefinement
import AuthWebauthn.Process.Moves
import AuthWebauthn.Redis.Session
import AuthWebauthn.System.Connections
import AuthWebauthn.Admin.Commands
import AuthWebauthn.Admin.Ledger
import AuthWebauthn.Admin.Settings
import AuthWebauthn.Process.Projection
import AuthWebauthn.System.CommandLines
import AuthWebauthn.System.EndToEnd
