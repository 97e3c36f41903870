import SealedGateway.Aead
import SealedGateway.Broker.Channel
import SealedGateway.Broker.Publisher
import SealedGateway.Bytes
import SealedGateway.CommandLine
import SealedGateway.Config.Basic
import SealedGateway.Config.File
import SealedGateway.Control.Bench
import SealedGateway.Control.Http
import SealedGateway.Control.Push
import SealedGateway.Crypto.Aes
import SealedGateway.Crypto.Blake2s
import SealedGateway.Crypto.Curve25519
import SealedGateway.Crypto.Gcm
import SealedGateway.Entropy
import SealedGateway.Failure
import SealedGateway.Gateway.Backend
import SealedGateway.Gateway.Basic
import SealedGateway.Gateway.Connection
import SealedGateway.Gateway.Scenario
import SealedGateway.Gateway.Schedule
import SealedGateway.Gateway.Server
import SealedGateway.Gateway.Startup
import SealedGateway.Json.Basic
import SealedGateway.Json.Number
import SealedGateway.Json.Parser
import SealedGateway.Json.Printer
import SealedGateway.Json.Record
import SealedGateway.Json.Text
import SealedGateway.KeyAgreement
import SealedGateway.Main
import SealedGateway.Metrics
import SealedGateway.Net.Address
import SealedGateway.Net.ClientName
import SealedGateway.Net.Listener
import SealedGateway.Net.Target
import SealedGateway.Number.Binary64
import SealedGateway.Number.Shortest
import SealedGateway.Outbound.Mailbox
import SealedGateway.Pool.Basic
import SealedGateway.Pool.Bench
import SealedGateway.Pool.Schedule
import SealedGateway.Pool.Sizing
import SealedGateway.Protocol
import SealedGateway.Registry.Basic
import SealedGateway.Registry.Directory
import SealedGateway.Registry.Tasks
import SealedGateway.Session
import SealedGateway.Session.Client
import SealedGateway.Session.Run
import SealedGateway.Text.Ascii
import SealedGateway.Text.Base64
import SealedGateway.Text.Hex
import SealedGateway.Text.Numeral
import SealedGateway.Text.Percent
import SealedGateway.Text.Split
import SealedGateway.Text.Utf8
import SealedGateway.Toml.Basic
import SealedGateway.Toml.Number
import SealedGateway.Toml.Parser
import SealedGateway.Toml.Text
import SealedGateway.Wire.Ack
import SealedGateway.Wire.Envelope
import SealedGateway.Wire.Frame
import SealedGateway.Wire.Message
import SealedGateway.Proofs.Session.Run
import SealedGateway.Proofs.Session.KeyHistory
import SealedGateway.Proofs.Session.Window
import SealedGateway.Proofs.Text.Base64
import SealedGateway.Proofs.Json.Text
import SealedGateway.Proofs.Json.Record
import SealedGateway.Proofs.Wire
import SealedGateway.Proofs.Session.Client
import SealedGateway.Proofs.Session.Delivery
import SealedGateway.Proofs.Session.Replay
import SealedGateway.Proofs.Pool.Jobs
import SealedGateway.Proofs.Registry.Tasks
import SealedGateway.Proofs.Gateway.Frames
import SealedGateway.Proofs.Registry.Gauge
import SealedGateway.Proofs.Broker.Payload
import SealedGateway.Proofs.Gateway.Run
import SealedGateway.Proofs.Gateway.Forwarding
import SealedGateway.Proofs.Outbound.Answers
import SealedGateway.Proofs.Outbound.Owner
import SealedGateway.Proofs.Outbound.Truthful
import SealedGateway.Proofs.Gateway.Pushes
import SealedGateway.Proofs.Wire.Frame
import SealedGateway.Proofs.Session.Rejected
import SealedGateway.Proofs.Net.ClientName
import SealedGateway.Proofs.Control.Views
import SealedGateway.Proofs.Gateway.Shutdown
import SealedGateway.Proofs.Crypto.Aes
import SealedGateway.Proofs.Crypto.Field
import SealedGateway.Proofs.Crypto.Ghash
import SealedGateway.Proofs.Aead.Exact
import SealedGateway.Proofs.Aead.Tamper
import SealedGateway.Proofs.Wire.Message
import SealedGateway.Proofs.Pool.Autoscale
import SealedGateway.Proofs.Control.Addressing
import SealedGateway.Proofs.Config.Load
import SealedGateway.Proofs.Config.Precedence
import SealedGateway.Proofs.Wire.Spelling
import SealedGateway.Proofs.Net.Listen
import SealedGateway.Proofs.Text.Base64.Format
