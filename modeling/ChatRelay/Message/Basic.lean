import ChatRelay.OpCode
import ChatRelay.SequenceId.Basic
import ChatRelay.Table

/-!
# Messages

The envelope that is delivered to clients, and the records that travel between clients, the relay
and the tiers around it. Only the body of an envelope reaches a client; its other fields are for
routing.
-/

namespace ChatRelay

/-- The envelope of a delivered message. -/
structure Msg where
  version : Int32
  op : OpCode
  /-- Unassigned if the sender leaves the numbering to the relay. -/
  seq : SequenceId
  body : String
  deriving DecidableEq, Repr

/-- The envelope version of this relay. -/
def Msg.currentVersion : Int32 := 1

/-- A message to one user. -/
structure PushUser where
  user : UserId
  msg : Msg
  deriving DecidableEq, Repr

/-- A message to a room. -/
structure PushRoom where
  room : RoomId
  msg : Msg
  deriving DecidableEq, Repr

/-- The answer to a call. -/
structure Reply where
  code : Int32
  msg : String
  deriving DecidableEq, Repr

namespace Reply

/-- The code of a call that succeeded. -/
def successCode : Int32 := 0

def success : Reply := ⟨successCode, "success"⟩

def isSuccess (r : Reply) : Bool :=
  r.code == successCode

end Reply

/-- The first message of a WebSocket client. -/
structure JoinRequest where
  authToken : String
  room : RoomId
  deriving DecidableEq, Repr

/-- The payload of a frame on a raw connection. Its code is any number: those without a meaning
are ignored. -/
structure TcpMessage where
  op : Int32
  authToken : String
  room : RoomId
  msg : String
  fromUser : UserId
  fromUserName : String
  deriving DecidableEq, Repr

/-- The body that tells how many users a room has. -/
structure RoomCount where
  op : OpCode
  count : UInt64
  deriving DecidableEq, Repr

def RoomCount.ofCount (count : UInt64) : RoomCount :=
  ⟨.roomCountSend, count⟩

/-- The body that tells which users a room has, by number and name. -/
structure RoomInfo where
  op : OpCode
  room : RoomId
  count : UInt64
  users : Table String String
  deriving DecidableEq, Repr

def RoomInfo.ofUsers (room : RoomId) (users : Table String String) : RoomInfo :=
  ⟨.roomInfoSend, room, UInt64.ofNat users.size, users⟩

/-- Ask the business tier who the holder of a token is. -/
structure ConnectRequest where
  authToken : String
  room : RoomId
  serverId : String
  deriving DecidableEq, Repr

/-- Tell the business tier that a user left a room. -/
structure DisconnectRequest where
  user : UserId
  room : RoomId
  deriving DecidableEq, Repr

/-- Hand chat in a room to the business tier. -/
structure SendRoomRequest where
  msg : String
  fromUser : UserId
  fromUserName : String
  room : RoomId
  op : Int32
  deriving DecidableEq, Repr

end ChatRelay
