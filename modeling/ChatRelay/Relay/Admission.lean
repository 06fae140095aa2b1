import ChatRelay.Relay.Error
import ChatRelay.Relay.Server

/-!
# Requests that need the business tier

A join and a message into a room are decided by the business tier, whose answer takes time. Both
are therefore split: first the request that has to be made, or the refusal that comes before it,
and then what follows from the answer. Other events may come between the two parts. A leave call
follows a teardown; whether it succeeds changes nothing.
-/

namespace ChatRelay.Server

/-! ## The parts -/

/-- The request that a join makes. -/
def joinRequest (s : Server) (token : String) (room : RoomId) :
    Except RequestError ConnectRequest :=
  if token.isEmpty then .error .missingAuthToken else .ok ⟨token, room, s.id⟩

/-- Finish a join on the business tier's answer. -/
def finishJoin (s : Server) (c : ChannelRef) (room : RoomId) :
    Except TierError UserId → Except RequestError (UserId × Server)
  | .error e => .error (.tier e)
  | .ok user =>
    if user.isUnassigned then .error .rejected
    else
      match s.register user room c with
      | .error e => .error (.bucket e)
      | .ok s => .ok (user, s)

/-- The request that a message into a room makes. Its operation code is that of chat in a room,
whatever the client's was. -/
def sendRoomRequest (s : Server) (c : ChannelRef) (m : TcpMessage) :
    Except RequestError SendRoomRequest :=
  if (s.channel? c).any Channel.isJoined then
    .ok ⟨m.msg, m.fromUser, m.fromUserName, m.room, OpCode.roomSend.toInt32⟩
  else .error .notJoined

/-! ## With the answer at hand -/

/-- A call that was made, by its answer. -/
def called {α : Type} (request : TierRequest) : Except TierError α → TierCall
  | .ok _ => ⟨request, true⟩
  | .error _ => ⟨request, false⟩

/-- Join at once: the answer comes before any other event. -/
def join (s : Server) (tier : BusinessTier) (c : ChannelRef) (token : String) (room : RoomId) :
    Except RequestError UserId × List TierCall × Server :=
  match s.joinRequest token room with
  | .error e => (.error e, [], s)
  | .ok request =>
    let answer := tier.connect request
    let calls := [called (.connect request) answer]
    match s.finishJoin c room answer with
    | .error e => (.error e, calls, s)
    | .ok (user, s) => (.ok user, calls, s)

/-- Hand chat from a raw connection to the business tier. -/
def sendRoom (s : Server) (tier : BusinessTier) (c : ChannelRef) (m : TcpMessage) :
    Except RequestError Unit × List TierCall :=
  match s.sendRoomRequest c m with
  | .error e => (.error e, [])
  | .ok request =>
    let answer := tier.sendRoom request
    (answer.mapError .tier, [called (.sendRoom request) answer])

/-- Tear a channel down and tell the business tier. -/
def leave (s : Server) (tier : BusinessTier) (c : ChannelRef) : List TierCall × Server :=
  let (request, s) := s.disconnect c
  (request.toList.map fun r => called (.disconnect r) (tier.disconnect r), s)

end ChatRelay.Server
