import ChatRelay.Membership.Roster
import ChatRelay.Table

/-!
# Buckets

A bucket is one part of the users: the channel of each user and the rooms its users are in, and
the queues of its broadcast workers. A user has one channel at a time; a newer one takes the place
of the older in the index, and the older stays in its room until its own teardown. Messages to a
room are queued on the workers in turn, without waiting, and are handed out when the worker runs:
the room is looked up then.
-/

namespace ChatRelay

/-- Why a bucket refuses an operation. -/
inductive BucketError where
  | room (error : RoomError)
  /-- A connection joins only once. -/
  | alreadyJoined (connId : Nat)
  /-- The connection's teardown has begun. -/
  | closing (connId : Nat)
  deriving DecidableEq, Repr

def BucketError.message : BucketError → String
  | room error => error.message
  | alreadyJoined connId => "Connection " ++ toString connId ++ " has already joined"
  | closing connId => "Connection " ++ toString connId ++ " is closing"

/-- How many buckets there are and how large they are laid out. -/
structure BucketConfig where
  count : Nat
  /-- Users for which room is made in advance. -/
  channelSize : Nat
  /-- Rooms for which room is made in advance. -/
  roomSize : Nat
  /-- Broadcast workers in each bucket. -/
  routineAmount : Nat
  /-- Messages that one worker's queue holds. -/
  routineSize : Nat
  deriving DecidableEq, Repr

/-- A message that is to be handed out to a room. -/
structure Job where
  room : RoomId
  msg : Msg
  deriving DecidableEq, Repr

/-- Where a channel was registered before it left. -/
structure Departure where
  user : UserId
  room : RoomId
  /-- The channel was the last one in its room. -/
  roomClosed : Bool
  deriving DecidableEq, Repr

/-- One part of the users. -/
structure Bucket where
  id : Nat
  users : Table UserId ChannelRef
  rooms : Table RoomId RoomRef
  /-- The jobs of each worker, oldest first. -/
  queues : List (List Job)
  queueBound : Nat
  /-- The number of messages that were offered so far, which says whose turn it is. -/
  turn : UInt64
  deriving DecidableEq, Repr

namespace Bucket

/-- A bucket without users. It has at least one worker, and a queue holds at least one job. -/
def new (id : Nat) (config : BucketConfig) : Bucket :=
  ⟨id, .empty, .empty, List.replicate (max config.routineAmount 1) [], max config.routineSize 1, 0⟩

def workerCount (b : Bucket) : Nat :=
  b.queues.length

def channelCount (b : Bucket) : Nat :=
  b.users.size

def roomCount (b : Bucket) : Nat :=
  b.rooms.size

/-- The channel that is registered for a user. -/
def lookupUser (b : Bucket) (user : UserId) : Option ChannelRef :=
  b.users.find? user

/-- The room that is registered under an identifier. -/
def lookupRoom (b : Bucket) (room : RoomId) : Option RoomRef :=
  b.rooms.find? room

/-! ## Joining and leaving -/

/-- Take a channel into a fresh room and register the room. The room that was registered before,
if there was one, has nobody else to hold it. -/
def openRoom (b : Bucket) (s : Roster) (room : RoomId) (c : ChannelRef) :
    Except RoomError (Bucket × Roster) :=
  let (fresh, s) := s.addRoom (.new room)
  (s.put fresh c).map fun s =>
    ({ b with rooms := b.rooms.insert room fresh }, (b.lookupRoom room).elim s s.release)

/-- Take a channel into the room of an identifier. A retired room that is still registered is
replaced. -/
def enterRoom (b : Bucket) (s : Roster) (room : RoomId) (c : ChannelRef) :
    Except RoomError (Bucket × Roster) :=
  match b.lookupRoom room with
  | none => b.openRoom s room c
  | some r =>
    match s.put r c with
    | .ok s => .ok (b, s)
    | .error (.dropped _) => b.openRoom s room c

/-- Register a channel for a user and, unless it is none, take it into a room. -/
def put (b : Bucket) (s : Roster) (user : UserId) (room : RoomId) (c : ChannelRef) :
    Except BucketError (Bucket × Roster) :=
  match s.channel? c with
  | none => .ok (b, s)
  | some channel =>
    if channel.isJoined then .error (.alreadyJoined channel.connId)
    else if channel.isClosing then .error (.closing channel.connId)
    else
      match if room.isRoom then b.enterRoom s room c else .ok (b, s) with
      | .error e => .error (.room e)
      | .ok (b, s) =>
        .ok ({ b with users := b.users.insert user c },
          s.modifyChannel c fun ch => ch.setJoined user room)

/-- Take a channel out of the room that it is linked to, and tell whether that retired the room.
A retired room is taken out of the index if it is the one registered there. -/
def leaveRoom (b : Bucket) (s : Roster) (c : ChannelRef) : Bool × Bucket × Roster :=
  match s.linkedRoom? c with
  | none => (false, b, s)
  | some (r, room) =>
    let (closed, s) := s.remove r c
    if closed ∧ b.lookupRoom room.id = some r then
      (closed, { b with rooms := b.rooms.erase room.id }, s.release r)
    else (closed, b, s)

/-- Undo a registration; a channel that never joined has none. -/
def remove (b : Bucket) (s : Roster) (c : ChannelRef) : Option Departure × Bucket × Roster :=
  match s.channel? c with
  | none => (none, b, s)
  | some channel =>
    if channel.isJoined then
      let b :=
        if b.lookupUser channel.user = some c then
          { b with users := b.users.erase channel.user }
        else b
      let (roomClosed, b, s) := b.leaveRoom s c
      (some ⟨channel.user, channel.room, roomClosed⟩, b, s)
    else (none, b, s)

/-! ## Broadcasts -/

/-- Queue a message for a room on the worker whose turn it is. The worker is told if its queue
was not full; the turn passes on in any case. -/
def broadcast (b : Bucket) (room : RoomId) (msg : Msg) : Option Nat × Bucket :=
  let worker := b.turn.toNat % b.workerCount
  let b := { b with turn := b.turn + 1 }
  if (b.queues.getD worker []).length < b.queueBound then
    (some worker, { b with queues := b.queues.modify worker (· ++ [⟨room, msg⟩]) })
  else (none, b)

/-- Hand out a message to the room that is registered now. -/
def perform (b : Bucket) (s : Roster) (job : Job) : Roster :=
  match b.lookupRoom job.room with
  | none => s
  | some r => (s.broadcast r job.msg).2

/-- Let a worker empty its queue. -/
def runWorker (b : Bucket) (s : Roster) (worker : Nat) : Bucket × Roster :=
  ({ b with queues := b.queues.set worker [] },
    (b.queues.getD worker []).foldl b.perform s)

def describe (b : Bucket) : String :=
  "Bucket \x7b id: " ++ toString b.id ++ ", channels: " ++ toString b.channelCount ++ ", rooms: " ++
    toString b.roomCount ++ ", workers: " ++ toString b.workerCount ++ " \x7d"

end Bucket

end ChatRelay
