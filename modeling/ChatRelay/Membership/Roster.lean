import ChatRelay.Membership.Room

/-!
# The roster

The roster holds all channels and all rooms by their references, and keeps the two sides of a
membership together: a room's slot names the channel, and the channel's link names the room and
the slot. A room that is let go is forgotten; channels that were linked to it are then in no room.
-/

namespace ChatRelay

/-- All channels and all rooms. -/
structure Roster where
  channels : List Channel
  rooms : List (Option Room)
  deriving DecidableEq, Repr

namespace Roster

def empty : Roster := ⟨[], []⟩

def channel? (s : Roster) (c : ChannelRef) : Option Channel :=
  s.channels[c.index]?

/-- The room of a name, unless it has been let go. -/
def room? (s : Roster) (r : RoomRef) : Option Room :=
  s.rooms[r.index]?.join

/-- Enter a channel under a new name. -/
def addChannel (s : Roster) (channel : Channel) : ChannelRef × Roster :=
  (⟨s.channels.length⟩, { s with channels := s.channels ++ [channel] })

/-- Enter a room under a new name. -/
def addRoom (s : Roster) (room : Room) : RoomRef × Roster :=
  (⟨s.rooms.length⟩, { s with rooms := s.rooms ++ [some room] })

def setChannel (s : Roster) (c : ChannelRef) (channel : Channel) : Roster :=
  { s with channels := s.channels.set c.index channel }

def modifyChannel (s : Roster) (c : ChannelRef) (f : Channel → Channel) : Roster :=
  { s with channels := s.channels.modify c.index f }

def setRoom (s : Roster) (r : RoomRef) (room : Room) : Roster :=
  { s with rooms := s.rooms.set r.index (some room) }

/-- Let a room go. -/
def release (s : Roster) (r : RoomRef) : Roster :=
  { s with rooms := s.rooms.set r.index none }

/-- The room that a channel is linked to, unless it has been let go. -/
def linkedRoom? (s : Roster) (c : ChannelRef) : Option (RoomRef × Room) :=
  ((s.channel? c).bind Channel.link).bind fun link =>
    (s.room? link.room).map fun room => (link.room, room)

/-- The channel's link names this room. -/
def contains (s : Roster) (r : RoomRef) (c : ChannelRef) : Bool :=
  ((s.channel? c).bind Channel.link).any fun link => link.room == r

/-- Take a channel into a room. A room that has been let go is not there to refuse. -/
def put (s : Roster) (r : RoomRef) (c : ChannelRef) : Except RoomError Roster :=
  match s.room? r with
  | none => .ok s
  | some room =>
    match room.put c with
    | .error e => .error e
    | .ok (slot, room) =>
      .ok ((s.setRoom r room).modifyChannel c fun ch => { ch with link := some ⟨r, slot⟩ })

/-- The room without the channel, if the channel's link leads to its slot there. -/
def unlink? (s : Roster) (r : RoomRef) (room : Room) (c : ChannelRef) : Option Room :=
  ((s.channel? c).bind Channel.link).bind fun link =>
    if link.room = r then room.unlink? link.slot c else none

/-- Take a channel out of a room, and tell whether the room is retired. A channel that is no
member changes nothing. -/
def remove (s : Roster) (r : RoomRef) (c : ChannelRef) : Bool × Roster :=
  match s.room? r with
  | none => (false, s)
  | some room =>
    match s.unlink? r room c with
    | none => (room.isDropped, s)
    | some room =>
      (room.isDropped, (s.setRoom r room).modifyChannel c fun ch => { ch with link := none })

/-- Offer a message to a channel. -/
def push (s : Roster) (c : ChannelRef) (msg : Msg) : Delivery × Roster :=
  match s.channel? c with
  | none => (.dropped, s)
  | some channel =>
    let (delivery, channel) := channel.push msg
    (delivery, s.setChannel c channel)

/-- Offer a message to channels in turn, and tell what became of each copy. -/
def pushAll (s : Roster) (msg : Msg) : List ChannelRef → List Delivery × Roster
  | [] => ([], s)
  | c :: cs =>
    let (delivery, s) := s.push c msg
    let (deliveries, s) := s.pushAll msg cs
    (delivery :: deliveries, s)

/-- Offer a message to every member of a room, and count the copies that were accepted. -/
def broadcast (s : Roster) (r : RoomRef) (msg : Msg) : Nat × Roster :=
  match s.room? r with
  | none => (0, s)
  | some room =>
    let (deliveries, s) := s.pushAll msg room.members
    (deliveries.count .accepted, s)

/-- Take the oldest `n` messages out of a channel's mailbox. -/
def takeMail (s : Roster) (c : ChannelRef) (n : Nat) : List Msg × Roster :=
  match s.channel? c with
  | none => ([], s)
  | some channel =>
    let (taken, mailbox) := channel.mailbox.take n
    (taken, s.setChannel c { channel with mailbox })

/-- Empty a channel's mailbox. -/
def drain (s : Roster) (c : ChannelRef) : List Msg × Roster :=
  match s.channel? c with
  | none => ([], s)
  | some channel => s.takeMail c channel.mailbox.waiting.length

/-- The writer of a channel's mailbox goes away. -/
def closeMailbox (s : Roster) (c : ChannelRef) : Roster :=
  s.modifyChannel c fun ch => { ch with mailbox := ch.mailbox.close }

/-- Begin the teardown of a channel; only the first caller is told so. -/
def beginClose (s : Roster) (c : ChannelRef) : Bool × Roster :=
  match s.channel? c with
  | none => (false, s)
  | some channel =>
    let (first, channel) := channel.beginClose
    (first, s.setChannel c channel)

/-- The number of a channel's connection. -/
def connId? (s : Roster) (c : ChannelRef) : Option Nat :=
  (s.channel? c).map Channel.connId

end Roster

end ChatRelay
