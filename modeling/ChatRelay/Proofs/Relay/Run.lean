import ChatRelay.Proofs.Membership.Queues
import ChatRelay.Relay.Admission

/-!
# Runs of a server

A run is a list of moves: calls that clients, their writers and other tiers make, and single steps
of the broadcast workers, in any order. Nothing is assumed about the order, about which user joins
over which connection, or about what the business tier answers; a join may be made at once or
finished when a late answer arrives. A call that names a channel which was never opened is answered
so and changes nothing.

`Server.step` is one move with its answer, `Server.after` the server after a list of moves and
`Server.history` the moves with their answers.
-/

namespace ChatRelay

/-- What a server is called for. -/
inductive Call where
  | openChannel
  | join (tier : BusinessTier) (c : ChannelRef) (token : String) (room : RoomId)
  /-- The answer to a join request arrives. -/
  | finishJoin (c : ChannelRef) (room : RoomId) (answer : Except TierError UserId)
  | leave (tier : BusinessTier) (c : ChannelRef)
  | pushUser (now : Nat) (user : UserId) (msg : Msg)
  | pushRoom (now : Nat) (room : RoomId) (msg : Msg)
  | pushRoomCount (now : Nat) (room : RoomId) (msg : Msg)
  | pushRoomInfo (now : Nat) (room : RoomId) (msg : Msg)
  /-- A writer takes the oldest messages out. -/
  | take (c : ChannelRef) (n : Nat)
  | drain (c : ChannelRef)
  | closeMailbox (c : ChannelRef)

/-- What a call is answered with. -/
inductive Answer where
  | opened (c : ChannelRef)
  | joined (outcome : Except RequestError UserId) (calls : List TierCall)
  | left (calls : List TierCall)
  | pushed (delivery : Option Delivery)
  | taken (msgs : List Msg)
  | done
  | unknownChannel

/-- A call, or a broadcast worker performs its oldest job. -/
inductive Move where
  | call (k : Call)
  | work (w : WorkerRef)

namespace Call

/-- The channel that a call names. -/
def channel? : Call → Option ChannelRef
  | join _ c _ _ | finishJoin c _ _ | leave _ c | take c _ | drain c | closeMailbox c => some c
  | openChannel | pushUser .. | pushRoom .. | pushRoomCount .. | pushRoomInfo .. => none

/-- The channel and the room of a join. -/
def entry? : Call → Option (ChannelRef × RoomId)
  | join _ c _ room | finishJoin c room _ => some (c, room)
  | openChannel | leave .. | pushUser .. | pushRoom .. | pushRoomCount .. | pushRoomInfo ..
  | take .. | drain .. | closeMailbox .. => none

/-- The clock reading, the room and the message of a push to a room. -/
def roomPush? : Call → Option (Nat × RoomId × Msg)
  | pushRoom now room msg => some (now, room, msg)
  | pushRoomCount now room msg => some (now, room, { msg with op := .roomCountSend })
  | pushRoomInfo now room msg => some (now, room, { msg with op := .roomInfoSend })
  | openChannel | join .. | finishJoin .. | leave .. | pushUser .. | take .. | drain ..
  | closeMailbox .. => none

end Call

namespace Server

/-- The call names a channel that was never opened. -/
def isStray (s : Server) (k : Call) : Bool :=
  k.channel?.any fun c => (s.channel? c).isNone

/-- A call all of whose channels are there. -/
def perform (s : Server) : Call → Answer × Server
  | .openChannel => let (c, s) := s.openChannel; (.opened c, s)
  | .join tier c token room =>
    let (outcome, calls, s) := s.join tier c token room
    (.joined outcome calls, s)
  | .finishJoin c room answer =>
    match s.finishJoin c room answer with
    | .error e => (.joined (.error e) [], s)
    | .ok (user, s) => (.joined (.ok user) [], s)
  | .leave tier c => let (calls, s) := s.leave tier c; (.left calls, s)
  | .pushUser now user msg =>
    let (delivery, s) := s.pushUser now user msg
    (.pushed delivery, s)
  | .pushRoom now room msg => (.done, s.pushRoom now room msg)
  | .pushRoomCount now room msg => (.done, s.pushRoomCount now room msg)
  | .pushRoomInfo now room msg => (.done, s.pushRoomInfo now room msg)
  | .take c n =>
    let (msgs, roster) := s.hub.roster.takeMail c n
    (.taken msgs, { s with hub := { s.hub with roster } })
  | .drain c => let (msgs, s) := s.drain c; (.taken msgs, s)
  | .closeMailbox c => (.done, s.closeMailbox c)

/-- One move and its answer. -/
def step (s : Server) : Move → Answer × Server
  | .call k => if s.isStray k then (.unknownChannel, s) else s.perform k
  | .work w => (.done, { s with hub := s.hub.work w })

/-- The server after a list of moves. -/
def after (s : Server) (ms : List Move) : Server :=
  ms.foldl (fun s m => (s.step m).2) s

/-- The moves with their answers. -/
def history (s : Server) : List Move → List (Move × Answer)
  | [] => []
  | m :: ms => (m, (s.step m).1) :: (s.step m).2.history ms

@[simp] theorem after_nil (s : Server) : s.after [] = s := rfl

@[simp] theorem after_append (s : Server) (ms ms' : List Move) :
    s.after (ms ++ ms') = (s.after ms).after ms' :=
  List.foldl_append

theorem after_concat (s : Server) (ms : List Move) (m : Move) :
    s.after (ms ++ [m]) = ((s.after ms).step m).2 :=
  s.after_append ms [m]

theorem history_append (s : Server) (ms ms' : List Move) :
    s.history (ms ++ ms') = s.history ms ++ (s.after ms).history ms' := by
  induction ms generalizing s with
  | nil => rfl
  | cons m ms ih =>
    rw [List.cons_append, history, history, ih, List.cons_append]
    rfl

theorem history_concat (s : Server) (ms : List Move) (m : Move) :
    s.history (ms ++ [m]) = s.history ms ++ [(m, ((s.after ms).step m).1)] :=
  s.history_append ms [m]

end Server

end ChatRelay
