import ChatRelay.Membership.Mailbox

/-!
# Channels

A channel is the relay's side of one connection: its number, the user and room it joined as, its
mailbox, the place it occupies in a room, and whether its teardown has begun. Channels and rooms
name each other by references, which are never used twice.
-/

namespace ChatRelay

/-- The name of a channel. -/
structure ChannelRef where
  index : Nat
  deriving DecidableEq, Repr

/-- The name of a room. A room that has gone keeps its name, another one never takes it. -/
structure RoomRef where
  index : Nat
  deriving DecidableEq, Repr

/-- The place of a channel in a room. -/
structure Link where
  room : RoomRef
  slot : Nat
  deriving DecidableEq, Repr

/-- The relay's side of one connection. -/
structure Channel where
  connId : Nat
  /-- Unassigned until the connection has joined. -/
  user : UserId
  /-- The room asked for when joining. -/
  room : RoomId
  mailbox : Mailbox
  link : Option Link
  /-- The teardown has begun. -/
  isClosing : Bool
  deriving DecidableEq, Repr

namespace Channel

/-- A connection that has not joined. -/
def new (connId mailboxBound : Nat) : Channel :=
  ⟨connId, .unassigned, .none, .new mailboxBound, none, false⟩

def isJoined (c : Channel) : Bool :=
  !c.user.isUnassigned

/-- Offer a message to the channel's mailbox. -/
def push (c : Channel) (msg : Msg) : Delivery × Channel :=
  let (delivery, mailbox) := c.mailbox.offer msg
  (delivery, { c with mailbox })

/-- Begin the teardown; only the first caller is told so. -/
def beginClose (c : Channel) : Bool × Channel :=
  (!c.isClosing, { c with isClosing := true })

def setJoined (c : Channel) (user : UserId) (room : RoomId) : Channel :=
  { c with user, room }

def describe (c : Channel) : String :=
  "Channel \x7b conn_id: " ++ toString c.connId ++ ", user_id: UserId(" ++ c.user.toText ++
    "), room_id: RoomId(" ++ c.room.toText ++ ") \x7d"

end Channel

end ChatRelay
