import Gatehouse.Arguments
import Gatehouse.Base64
import Gatehouse.Certificate.Der
import Gatehouse.Certificate.Name
import Gatehouse.Certificate.Pem
import Gatehouse.Certificate.Subject
import Gatehouse.Component.Class
import Gatehouse.Component.Method
import Gatehouse.Component.Name
import Gatehouse.Component.Setup
import Gatehouse.Component.Work
import Gatehouse.Config.Dotenv
import Gatehouse.Config.Environment
import Gatehouse.Config.Loader
import Gatehouse.Config.Options
import Gatehouse.Config.Settings
import Gatehouse.Config.Surroundings
import Gatehouse.Config.Toml.Node
import Gatehouse.Config.Toml.Reader
import Gatehouse.Config.Toml.Scalar
import Gatehouse.Config.Toml.Text
import Gatehouse.Credential
import Gatehouse.Grant.Basic
import Gatehouse.Grant.Chain
import Gatehouse.Http.Form
import Gatehouse.Http.Header
import Gatehouse.Http.Percent
import Gatehouse.Http.Status
import Gatehouse.Identity.Config
import Gatehouse.Identity.Provider
import Gatehouse.Json.Basic
import Gatehouse.Json.Decode
import Gatehouse.Json.Diagnostics
import Gatehouse.Json.Document
import Gatehouse.Json.Fault
import Gatehouse.Json.Misfit
import Gatehouse.Json.Numeral
import Gatehouse.Json.Printer
import Gatehouse.Json.Quotation
import Gatehouse.Json.Read
import Gatehouse.Json.Reader
import Gatehouse.Json.Record
import Gatehouse.Json.Skip
import Gatehouse.Log
import Gatehouse.Net.Address
import Gatehouse.Net.Host
import Gatehouse.Number.Binary64
import Gatehouse.Number.Shortest
import Gatehouse.Pattern.Basic
import Gatehouse.Pattern.Bracket
import Gatehouse.Pattern.Escape
import Gatehouse.Pattern.Parser
import Gatehouse.Pattern.Scan
import Gatehouse.Pattern.Support
import Gatehouse.Policy.Engine
import Gatehouse.Policy.Gate
import Gatehouse.Policy.Rules
import Gatehouse.Proofs.Arguments.Dispatch
import Gatehouse.Proofs.Arguments.Parsing
import Gatehouse.Proofs.Base64
import Gatehouse.Proofs.Certificate.Blocks
import Gatehouse.Proofs.Certificate.Der
import Gatehouse.Proofs.Certificate.Identifiers
import Gatehouse.Proofs.Certificate.Lines
import Gatehouse.Proofs.Certificate.Name
import Gatehouse.Proofs.Certificate.Pem
import Gatehouse.Proofs.Certificate.Proxies
import Gatehouse.Proofs.Certificate.Subject
import Gatehouse.Proofs.Certificate.Types
import Gatehouse.Proofs.Component.Attempt
import Gatehouse.Proofs.Component.Build
import Gatehouse.Proofs.Component.Counting
import Gatehouse.Proofs.Component.Engines
import Gatehouse.Proofs.Component.Exports
import Gatehouse.Proofs.Component.Interleaving
import Gatehouse.Proofs.Component.Name
import Gatehouse.Proofs.Component.OnceOnly
import Gatehouse.Proofs.Component.Requirements
import Gatehouse.Proofs.Config.Coherence
import Gatehouse.Proofs.Config.Dotenv
import Gatehouse.Proofs.Config.Keys
import Gatehouse.Proofs.Config.Layers
import Gatehouse.Proofs.Config.Options
import Gatehouse.Proofs.Config.Overrides
import Gatehouse.Proofs.Config.Survival
import Gatehouse.Proofs.Config.Written
import Gatehouse.Proofs.Credential
import Gatehouse.Proofs.Effect
import Gatehouse.Proofs.Grant.Bearer
import Gatehouse.Proofs.Grant.Certificate
import Gatehouse.Proofs.Grant.Chain
import Gatehouse.Proofs.Http.Form
import Gatehouse.Proofs.Http.Header
import Gatehouse.Proofs.Identity.Acceptance
import Gatehouse.Proofs.Identity.Audience
import Gatehouse.Proofs.Identity.Groups
import Gatehouse.Proofs.Identity.Issuers
import Gatehouse.Proofs.Identity.Loading
import Gatehouse.Proofs.Identity.Selection
import Gatehouse.Proofs.Identity.Validity
import Gatehouse.Proofs.Json.Acceptance
import Gatehouse.Proofs.Json.Attested
import Gatehouse.Proofs.Json.Contents
import Gatehouse.Proofs.Json.Direct
import Gatehouse.Proofs.Json.Exact
import Gatehouse.Proofs.Json.Faithful
import Gatehouse.Proofs.Json.Nesting
import Gatehouse.Proofs.Json.Parts
import Gatehouse.Proofs.Json.Passing
import Gatehouse.Proofs.Json.Places
import Gatehouse.Proofs.Json.Printed
import Gatehouse.Proofs.Json.Reading
import Gatehouse.Proofs.Json.Records
import Gatehouse.Proofs.Json.Saying
import Gatehouse.Proofs.Json.Scalars
import Gatehouse.Proofs.Json.Strip
import Gatehouse.Proofs.Json.Values
import Gatehouse.Proofs.Log
import Gatehouse.Proofs.Policy.Decision
import Gatehouse.Proofs.Policy.Properties
import Gatehouse.Proofs.Policy.Sharing
import Gatehouse.Proofs.Response.Body
import Gatehouse.Proofs.Response.Codec
import Gatehouse.Proofs.Response.Completion
import Gatehouse.Proofs.Response.Frozen
import Gatehouse.Proofs.Response.Refusal
import Gatehouse.Proofs.Response.Replay
import Gatehouse.Proofs.Response.Script
import Gatehouse.Proofs.Response.Shapes
import Gatehouse.Proofs.Service.Counting
import Gatehouse.Proofs.Service.Diagnostics
import Gatehouse.Proofs.Service.Finality
import Gatehouse.Proofs.Service.Mounting
import Gatehouse.Proofs.Service.Order
import Gatehouse.Proofs.Service.Outcome
import Gatehouse.Proofs.Service.Readiness
import Gatehouse.Proofs.Service.Record
import Gatehouse.Proofs.Service.Response
import Gatehouse.Proofs.Service.Routing
import Gatehouse.Proofs.Service.Secrecy
import Gatehouse.Proofs.Service.Segments
import Gatehouse.Proofs.Service.Sequence
import Gatehouse.Proofs.Service.Stages
import Gatehouse.Proofs.Service.Starting
import Gatehouse.Proofs.Service.Work
import Gatehouse.Proofs.Table
import Gatehouse.Proofs.Text.Split
import Gatehouse.Proofs.Text.Trim
import Gatehouse.Proofs.Text.Upper
import Gatehouse.Proofs.Text.Utf8
import Gatehouse.Proofs.Text.Words
import Gatehouse.Proofs.Token.Registered
import Gatehouse.Proofs.Token.Signing
import Gatehouse.Proofs.Token.Verification
import Gatehouse.Request
import Gatehouse.RequestContext
import Gatehouse.Response.Codec
import Gatehouse.Response.Deferred
import Gatehouse.Response.Result
import Gatehouse.Response.Writer
import Gatehouse.Service.Bootstrap
import Gatehouse.Service.Fault
import Gatehouse.Service.Handling
import Gatehouse.Service.Health
import Gatehouse.Service.Intake
import Gatehouse.Service.Server
import Gatehouse.Service.Shutdown
import Gatehouse.ServiceError
import Gatehouse.Table
import Gatehouse.Telemetry.Filter
import Gatehouse.Telemetry.Metrics
import Gatehouse.Telemetry.Monitor
import Gatehouse.Telemetry.Session
import Gatehouse.Text.AsciiCase
import Gatehouse.Text.Blank
import Gatehouse.Text.Hex
import Gatehouse.Text.Hidden
import Gatehouse.Text.Letter
import Gatehouse.Text.Quoted
import Gatehouse.Text.Ranges
import Gatehouse.Text.Split
import Gatehouse.Text.Upper
import Gatehouse.Text.Utf8
import Gatehouse.Token.Algorithm
import Gatehouse.Token.Claims
import Gatehouse.Token.Compact
import Gatehouse.Token.Jwk
import Gatehouse.Token.Key
import Gatehouse.Token.Sha2
import Gatehouse.Token.Signature
