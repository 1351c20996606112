import SigningProxy.Address
import SigningProxy.Backend.Basic
import SigningProxy.Backend.Joining
import SigningProxy.Base64
import SigningProxy.Decimal.Shortest
import SigningProxy.Digest.Hmac
import SigningProxy.Digest.Sha256
import SigningProxy.Duration
import SigningProxy.Files.FileError
import SigningProxy.Files.Path
import SigningProxy.Files.Tree
import SigningProxy.Forward.Carrier
import SigningProxy.Forward.Deadline
import SigningProxy.Forward.Error
import SigningProxy.Forward.Gateway
import SigningProxy.Forward.Hops
import SigningProxy.Forward.Readdress
import SigningProxy.Forward.Signing
import SigningProxy.Http.Authority
import SigningProxy.Http.Body
import SigningProxy.Http.Field
import SigningProxy.Http.Headers
import SigningProxy.Http.Message
import SigningProxy.Http.Uri
import SigningProxy.Json.Fault
import SigningProxy.Json.Lexeme
import SigningProxy.Json.Record
import SigningProxy.Key.Concurrent
import SigningProxy.Key.Store
import SigningProxy.Log
import SigningProxy.Main
import SigningProxy.Network.Attempt
import SigningProxy.Network.Client
import SigningProxy.Network.Connector
import SigningProxy.Network.Host
import SigningProxy.Network.Timeouts
import SigningProxy.Network.Transport
import SigningProxy.Network.Upload
import SigningProxy.Program.Binding
import SigningProxy.Program.CommandLine
import SigningProxy.Program.Options
import SigningProxy.Program.Server
import SigningProxy.Program.Startup
import SigningProxy.Rehearsal.Script
import SigningProxy.Rehearsal.Session
import SigningProxy.Rehearsal.World
import SigningProxy.Settings.Basic
import SigningProxy.Settings.Check
import SigningProxy.Settings.Error
import SigningProxy.Settings.File
import SigningProxy.Text.Blank
import SigningProxy.Text.Cut
import SigningProxy.Text.Likeness
import SigningProxy.Text.Listing
import SigningProxy.Text.Quoted
import SigningProxy.Text.Steering
import SigningProxy.Text.Unshown
import SigningProxy.Text.Utf8
import SigningProxy.Time.Course
import SigningProxy.Time.Eventual
import SigningProxy.Token.Claims
import SigningProxy.Token.Signer
import SigningProxy.Proofs.Base64
import SigningProxy.Proofs.Json.Grammar
import SigningProxy.Proofs.Json.Strings
import SigningProxy.Proofs.Json.Numbers
import SigningProxy.Proofs.Json.Skipping
import SigningProxy.Proofs.Json.Records
import SigningProxy.Proofs.Text.Cut
import SigningProxy.Proofs.Token.Verify
import SigningProxy.Proofs.Forward.Exchange
import SigningProxy.Proofs.Forward.Hops
import SigningProxy.Proofs.Forward.Outcome
import SigningProxy.Proofs.Address
import SigningProxy.Proofs.Forward.Frame
import SigningProxy.Proofs.Key.Concurrent
import SigningProxy.Proofs.Http.Uri
import SigningProxy.Proofs.Forward.Readdress
import SigningProxy.Proofs.Forward.Binding
import SigningProxy.Proofs.Except
import SigningProxy.Proofs.Base64.Strict
import SigningProxy.Proofs.Token.Acceptance
import SigningProxy.Proofs.Key.Writing
import SigningProxy.Proofs.Backend
import SigningProxy.Proofs.Http.Parsed
import SigningProxy.Proofs.Forward.Confinement
import SigningProxy.Proofs.Program.Startup
import SigningProxy.Proofs.Forward.Deadline
import SigningProxy.Proofs.Token.RoundTrip
import SigningProxy.Proofs.Rehearsal.Turns
import SigningProxy.Proofs.Rehearsal.Independence
import SigningProxy.Proofs.Files.Recode
import SigningProxy.Proofs.Forward.Heard
import SigningProxy.Proofs.Key.Redacted
import SigningProxy.Proofs.Forward.Secrecy
import SigningProxy.Proofs.Rehearsal.Secrecy
import SigningProxy.Proofs.Forward.Nominations
import SigningProxy.Proofs.Forward.Chain
import SigningProxy.Proofs.Base64.Refused
import SigningProxy.Proofs.Key.Format
import SigningProxy.Proofs.Backend.Spelling
import SigningProxy.Proofs.Http.Authority
import SigningProxy.Proofs.Backend.Host
import SigningProxy.Proofs.Network.Transport
import SigningProxy.Proofs.Forward.Addressable
import SigningProxy.Proofs.Forward.Chained
import SigningProxy.Proofs.Key.Sequence
import SigningProxy.Proofs.Files.Tree
import SigningProxy.Proofs.Settings.RoundTrip
import SigningProxy.Proofs.Settings.Precedence
import SigningProxy.Proofs.Settings.Check
import SigningProxy.Proofs.Forward.Port
import SigningProxy.Proofs.Files.Growth
import SigningProxy.Proofs.Settings.Loading
import SigningProxy.Network.Race
import SigningProxy.Proofs.Network.Race
import SigningProxy.Proofs.Network.Clock
import SigningProxy.Proofs.Time.Moments
import SigningProxy.Proofs.Network.Attempt
import SigningProxy.Proofs.Network.Handshake
