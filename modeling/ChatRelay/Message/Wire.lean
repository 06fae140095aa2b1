import ChatRelay.Json.Record
import ChatRelay.Message.Basic

/-!
# Messages on the wire

The JSON form of every record: the names, the order and the defaults of its fields. An operation
code outside the known ones and a text that is no sequence id are refused in this library's words.
A sequence id is written as an integer and read from an integer or from a decimal text, for
senders that cannot carry 64-bit integers.
-/

namespace ChatRelay

open Json

def UserId.wire : Codec UserId :=
  Codec.int64.map mk value

def RoomId.wire : Codec RoomId :=
  Codec.int64.map mk value

def OpCode.wire : Codec OpCode :=
  Codec.int32.refine
    (fun n =>
      match ofInt32? n with
      | some op => .ok op
      | none => .error (.mismatch (some (unknownMessage n))))
    toInt32

/-- The sequence id that a value stands for. -/
def SequenceId.ofSummary : Codec.Summary → Except Fault SequenceId
  | .whole i =>
    if Int64.minValue.toInt ≤ i ∧ i ≤ Int64.maxValue.toInt then .ok ⟨Int64.ofInt i⟩
    else .error .unfit
  | .text s =>
    match ofText? s with
    | some id => .ok id
    | none => .error (.mismatch (some (formatMessage s)))
  | .other => .error .unfit

def SequenceId.wire : Codec SequenceId :=
  Codec.summarized ofSummary fun s => s.value.toInt

def Msg.wire : Codec Msg :=
  (Fields.cons "ver" Codec.int32 none <| .cons "op" OpCode.wire none <|
    .cons "seq" SequenceId.wire (some .unassigned) <| .cons "body" Codec.text none .nil).codec.map
    (fun (version, op, seq, body, ()) => ⟨version, op, seq, body⟩)
    (fun m => (m.version, m.op, m.seq, m.body, ()))

def PushUser.wire : Codec PushUser :=
  (Fields.cons "userId" UserId.wire none <| .cons "msg" Msg.wire none .nil).codec.map
    (fun (user, msg, ()) => ⟨user, msg⟩) (fun p => (p.user, p.msg, ()))

def PushRoom.wire : Codec PushRoom :=
  (Fields.cons "roomId" RoomId.wire none <| .cons "msg" Msg.wire none .nil).codec.map
    (fun (room, msg, ()) => ⟨room, msg⟩) (fun p => (p.room, p.msg, ()))

def Reply.wire : Codec Reply :=
  (Fields.cons "code" Codec.int32 none <| .cons "msg" Codec.text none .nil).codec.map
    (fun (code, msg, ()) => ⟨code, msg⟩) (fun r => (r.code, r.msg, ()))

def JoinRequest.wire : Codec JoinRequest :=
  (Fields.cons "authToken" Codec.text (some "") <|
    .cons "roomId" RoomId.wire (some .none) .nil).codec.map
    (fun (authToken, room, ()) => ⟨authToken, room⟩) (fun j => (j.authToken, j.room, ()))

def TcpMessage.wire : Codec TcpMessage :=
  (Fields.cons "op" Codec.int32 (some 0) <| .cons "authToken" Codec.text (some "") <|
    .cons "roomId" RoomId.wire (some ⟨0⟩) <| .cons "msg" Codec.text (some "") <|
    .cons "fromUserId" UserId.wire (some .unassigned) <|
    .cons "fromUserName" Codec.text (some "") .nil).codec.map
    (fun (op, authToken, room, msg, fromUser, fromUserName, ()) =>
      ⟨op, authToken, room, msg, fromUser, fromUserName⟩)
    (fun m => (m.op, m.authToken, m.room, m.msg, m.fromUser, m.fromUserName, ()))

def RoomCount.wire : Codec RoomCount :=
  (Fields.cons "op" OpCode.wire none <| .cons "count" Codec.uint64 none .nil).codec.map
    (fun (op, count, ()) => ⟨op, count⟩) (fun c => (c.op, c.count, ()))

def RoomInfo.wire : Codec RoomInfo :=
  (Fields.cons "op" OpCode.wire none <| .cons "roomId" RoomId.wire none <|
    .cons "count" Codec.uint64 none <|
    .cons "roomUserInfo" (Codec.texts.map Table.ofList Table.entries) none .nil).codec.map
    (fun (op, room, count, users, ()) => ⟨op, room, count, users⟩)
    (fun i => (i.op, i.room, i.count, i.users, ()))

def ConnectRequest.wire : Codec ConnectRequest :=
  (Fields.cons "authToken" Codec.text none <| .cons "roomId" RoomId.wire none <|
    .cons "serverId" Codec.text none .nil).codec.map
    (fun (authToken, room, serverId, ()) => ⟨authToken, room, serverId⟩)
    (fun c => (c.authToken, c.room, c.serverId, ()))

def DisconnectRequest.wire : Codec DisconnectRequest :=
  (Fields.cons "userId" UserId.wire none <| .cons "roomId" RoomId.wire none .nil).codec.map
    (fun (user, room, ()) => ⟨user, room⟩) (fun d => (d.user, d.room, ()))

def SendRoomRequest.wire : Codec SendRoomRequest :=
  (Fields.cons "msg" Codec.text none <| .cons "fromUserId" UserId.wire none <|
    .cons "fromUserName" Codec.text none <| .cons "roomId" RoomId.wire none <|
    .cons "op" Codec.int32 none .nil).codec.map
    (fun (msg, fromUser, fromUserName, room, op, ()) => ⟨msg, fromUser, fromUserName, room, op⟩)
    (fun s => (s.msg, s.fromUser, s.fromUserName, s.room, s.op, ()))

end ChatRelay
