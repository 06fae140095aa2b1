import ChatRelay.Config.Basic
import ChatRelay.Config.Load
import ChatRelay.Config.Tracing
import ChatRelay.Config.Variables
import ChatRelay.Frame.Basic
import ChatRelay.Frame.Decoder
import ChatRelay.Gateway.Basic
import ChatRelay.Http.ContentType
import ChatRelay.Http.Message
import ChatRelay.Http.Route
import ChatRelay.Id
import ChatRelay.Json.Codec
import ChatRelay.Json.Fault
import ChatRelay.Json.Lexer
import ChatRelay.Json.Magnitude
import ChatRelay.Json.Record
import ChatRelay.Json.Token
import ChatRelay.Json.Walk
import ChatRelay.Membership.Bucket
import ChatRelay.Membership.Channel
import ChatRelay.Membership.Hub
import ChatRelay.Membership.Mailbox
import ChatRelay.Membership.Room
import ChatRelay.Membership.Roster
import ChatRelay.Membership.Sharding
import ChatRelay.Message.Basic
import ChatRelay.Message.Wire
import ChatRelay.Net.Local
import ChatRelay.Net.SocketAddress
import ChatRelay.Net.Url
import ChatRelay.OpCode
import ChatRelay.Push.Client
import ChatRelay.Push.Router
import ChatRelay.Registry.Action
import ChatRelay.Registry.Directory
import ChatRelay.Registry.Entry
import ChatRelay.Registry.Keepalive
import ChatRelay.Registry.Memory
import ChatRelay.Registry.Redis.Announcer
import ChatRelay.Registry.Redis.Command
import ChatRelay.Registry.Redis.Rehearsal
import ChatRelay.Registry.Redis.Settings
import ChatRelay.Registry.Redis.Store
import ChatRelay.Registry.Redis.Url
import ChatRelay.Registry.Rehearsal
import ChatRelay.Registry.Watch
import ChatRelay.Relay.Admission
import ChatRelay.Relay.Error
import ChatRelay.Relay.Server
import ChatRelay.SequenceId.Basic
import ChatRelay.SequenceId.Generator
import ChatRelay.Service.Blueprint
import ChatRelay.Service.Error
import ChatRelay.Service.Run
import ChatRelay.Table
import ChatRelay.Text.Blank
import ChatRelay.Text.Decimal
import ChatRelay.Text.Duration
import ChatRelay.Text.Instant
import ChatRelay.Text.Quoted
import ChatRelay.Text.Split
import ChatRelay.Text.Unprintable
import ChatRelay.Text.Utf8
import ChatRelay.Tier.Basic
import ChatRelay.Tier.Http
import ChatRelay.Tier.Rehearsal
import ChatRelay.Transport.Outgoing
import ChatRelay.Transport.Raw
import ChatRelay.Transport.WebSocket
import ChatRelay.Proofs.Membership.Links
import ChatRelay.Proofs.Membership.Bucket
import ChatRelay.Proofs.Membership.Coherence
import ChatRelay.Proofs.Membership.Registration
import ChatRelay.Proofs.Membership.Queues
import ChatRelay.Proofs.Relay.Run
import ChatRelay.Proofs.Relay.Outcome
import ChatRelay.Proofs.Relay.Consistency
import ChatRelay.Proofs.Membership.Rounds
import ChatRelay.Proofs.Membership.Lockstep
import ChatRelay.Proofs.Relay.Sharding
import ChatRelay.Proofs.Relay.Broadcast
import ChatRelay.Proofs.Relay.Provenance
import ChatRelay.Proofs.Frame.Chunks
import ChatRelay.Proofs.Frame.Stream
import ChatRelay.Proofs.Frame.InPlace
import ChatRelay.Proofs.Frame.Grammar
import ChatRelay.Proofs.Relay.Teardown
import ChatRelay.Proofs.Relay.LeaveCalls
import ChatRelay.Proofs.Relay.LeaveLog
import ChatRelay.Proofs.Membership.UserIndex
import ChatRelay.Proofs.SequenceId.Fields
import ChatRelay.Proofs.SequenceId.Issuing
import ChatRelay.Proofs.Transport.RawProtocol
import ChatRelay.Proofs.Registry.Keyspace
import ChatRelay.Proofs.Registry.Names
import ChatRelay.Proofs.Registry.Clocked
import ChatRelay.Proofs.Registry.Announcing
import ChatRelay.Proofs.Registry.Agreement
import ChatRelay.Proofs.Registry.Lease
import ChatRelay.Proofs.Registry.Listing
import ChatRelay.Proofs.Gateway.Run
import ChatRelay.Proofs.Gateway.Serving
import ChatRelay.Proofs.Registry.Following
import ChatRelay.Proofs.Json.Spelling
import ChatRelay.Proofs.Json.Lossless
import ChatRelay.Proofs.Json.Lexemes
import ChatRelay.Proofs.Json.Values
import ChatRelay.Proofs.Json.Records
import ChatRelay.Proofs.Message.RoundTrip
import ChatRelay.Proofs.Push.Surface
import ChatRelay.Proofs.Message.WrittenJoin
import ChatRelay.Proofs.Transport.Joining
import ChatRelay.Proofs.Transport.Outbound
import ChatRelay.Proofs.Gateway.SocketCourse
import ChatRelay.Proofs.History
import ChatRelay.Proofs.Membership.PlainLists
import ChatRelay.Proofs.Membership.Orderly
import ChatRelay.Proofs.Membership.Regular
import ChatRelay.Proofs.Membership.Generations
import ChatRelay.Proofs.Membership.InPlace
import ChatRelay.Proofs.Membership.Commuting
import ChatRelay.Proofs.Membership.Capacity
import ChatRelay.Proofs.Membership.Crew
import ChatRelay.Proofs.Relay.Logbook
import ChatRelay.Proofs.Relay.CallOrder
import ChatRelay.Proofs.Registry.Metadata
import ChatRelay.Proofs.Config.Settings
import ChatRelay.Proofs.Config.Blanks
import ChatRelay.Proofs.Config.Loading
import ChatRelay.Proofs.Text.Grammar
import ChatRelay.Proofs.Membership.SlotReuse
import ChatRelay.Proofs.Registry.Rotation
import ChatRelay.Proofs.Registry.Glob
import ChatRelay.Proofs.Registry.BasePath
import ChatRelay.Proofs.Text.Canonical
import ChatRelay.Proofs.Text.Quoting
import ChatRelay.Proofs.Identifiers
import ChatRelay.Proofs.Message.Spellings
