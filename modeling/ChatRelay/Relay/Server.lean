import ChatRelay.Membership.Hub
import ChatRelay.Membership.Sharding
import ChatRelay.SequenceId.Generator

/-!
# The server

The server is the state of one relay instance: its identifier, the hub, the issuer of sequence
ids, and the number of the last connection. A message that has no sequence id yet is given one
when it is delivered, on the clock reading `now`; a message to a room is given one id for all
buckets.
-/

namespace ChatRelay

/-- Limits and deadlines of connections; times are in seconds, sizes in bytes. -/
structure ConnectionOptions where
  /-- How long a write may take. -/
  writeWait : Nat
  /-- How long a WebSocket client may be silent. -/
  pongWait : Nat
  /-- The time between two heartbeats. -/
  pingPeriod : Nat
  maxMessageSize : Nat
  writeBufferSize : Nat
  /-- Messages that a mailbox holds. -/
  broadcastSize : Nat
  deriving DecidableEq, Repr

/-- The options that are taken where none are given. -/
def ConnectionOptions.standard : ConnectionOptions :=
  ⟨10, 60, 54, 512, 1024, 512⟩

/-- How many buckets, registered users and registered rooms there are. -/
structure Stats where
  buckets : Nat
  channels : Nat
  rooms : Nat
  deriving DecidableEq, Repr

/-- One relay instance. -/
structure Server where
  id : String
  options : ConnectionOptions
  hub : Hub
  generator : SequenceId.Generator
  /-- Connections so far. -/
  connections : Nat
  deriving DecidableEq, Repr

namespace Server

/-- A server without connections. -/
def new (id : String) (options : ConnectionOptions) (buckets : BucketConfig)
    (generator : SequenceId.Generator) : Server :=
  ⟨id, options, .new buckets, generator, 0⟩

def stats (s : Server) : Stats :=
  ⟨s.hub.buckets.length, s.hub.channelCount, s.hub.roomCount⟩

def channel? (s : Server) (c : ChannelRef) : Option Channel :=
  s.hub.roster.channel? c

/-- The bucket of a user. -/
def bucketOf (s : Server) (user : UserId) : Nat :=
  user.bucketIndex s.hub.buckets.length

/-- The channel that is registered for a user. -/
def lookupUser (s : Server) (user : UserId) : Option ChannelRef :=
  (s.hub.buckets[s.bucketOf user]?).bind fun b => b.lookupUser user

/-- Enter a channel for a new connection; connections are numbered from 1. -/
def openChannel (s : Server) : ChannelRef × Server :=
  let connId := s.connections + 1
  let (c, roster) := s.hub.roster.addChannel (.new connId s.options.broadcastSize)
  (c, { s with connections := connId, hub := { s.hub with roster } })

/-- Register a channel in the bucket of a user. -/
def register (s : Server) (user : UserId) (room : RoomId) (c : ChannelRef) :
    Except BucketError Server :=
  (s.hub.put (s.bucketOf user) user room c).map fun hub => { s with hub }

/-- Begin the teardown of a channel and undo its registration; only the first call does anything.
The answer is what the business tier is told: that the user left the room, if there was one. -/
def disconnect (s : Server) (c : ChannelRef) : Option DisconnectRequest × Server :=
  let (first, roster) := s.hub.roster.beginClose c
  let s := { s with hub := { s.hub with roster } }
  match first, s.channel? c with
  | true, some channel =>
    if channel.isJoined then
      let (departure, hub) := s.hub.remove (s.bucketOf channel.user) c
      ((departure.filter fun d => d.room.isRoom).map fun d => ⟨d.user, d.room⟩, { s with hub })
    else (none, s)
  | _, _ => (none, s)

/-! ## Pushing -/

/-- Give a message a sequence id unless it has one. -/
def stamp (s : Server) (now : Nat) (msg : Msg) : Msg × Server :=
  if msg.seq.isUnassigned then
    let (seq, generator) := s.generator.issue now
    ({ msg with seq }, { s with generator })
  else (msg, s)

/-- Offer a message to the channel of a user, if the user has one. -/
def pushUser (s : Server) (now : Nat) (user : UserId) (msg : Msg) : Option Delivery × Server :=
  match s.lookupUser user with
  | none => (none, s)
  | some c =>
    let (msg, s) := s.stamp now msg
    let (delivery, roster) := s.hub.roster.push c msg
    (some delivery, { s with hub := { s.hub with roster } })

/-- Queue a message for the members of a room, in every bucket. -/
def pushRoom (s : Server) (now : Nat) (room : RoomId) (msg : Msg) : Server :=
  let (msg, s) := s.stamp now msg
  { s with hub := s.hub.broadcastAll room msg }

/-- Queue a message that tells how many users a room has. -/
def pushRoomCount (s : Server) (now : Nat) (room : RoomId) (msg : Msg) : Server :=
  s.pushRoom now room { msg with op := .roomCountSend }

/-- Queue a message that tells which users a room has. -/
def pushRoomInfo (s : Server) (now : Nat) (room : RoomId) (msg : Msg) : Server :=
  s.pushRoom now room { msg with op := .roomInfoSend }

/-- Let the broadcast workers empty their queues. -/
def runWorkers (s : Server) : Server :=
  { s with hub := s.hub.run }

/-- Take all messages out of a channel's mailbox. -/
def drain (s : Server) (c : ChannelRef) : List Msg × Server :=
  let (taken, roster) := s.hub.roster.drain c
  (taken, { s with hub := { s.hub with roster } })

/-- The writer of a channel's mailbox goes away. -/
def closeMailbox (s : Server) (c : ChannelRef) : Server :=
  { s with hub := { s.hub with roster := s.hub.roster.closeMailbox c } }

end Server

end ChatRelay
