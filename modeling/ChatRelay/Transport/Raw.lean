import ChatRelay.Frame.Decoder
import ChatRelay.Message.Wire
import ChatRelay.Relay.Admission

/-!
# Reading a raw connection

Every frame holds a message with a token and a positive room; one that does not ends the
connection. A client joins by a message of its own, and a join that fails ends the connection. Once
it has joined, chat is handed to the business tier, and a failure of that is only noted; chat
before the join, further joins, and messages of any other code are ignored.
-/

namespace ChatRelay.Transport

/-- How a raw connection ended. -/
inductive RawEnd where
  | peerClosed
  | rejected (error : RequestError)
  deriving DecidableEq, Repr

def RawEnd.describe : RawEnd → String
  | peerClosed => "tcp:peer_closed"
  | rejected error => "tcp:rejected:" ++ error.kind

/-- What a reader has come to: the error that ends the connection, if any, the calls that were
made, and the server afterwards. -/
structure Progress (ε : Type) where
  ended : Option ε
  calls : List TierCall
  server : Server

/-- Read the message in a payload. -/
def readMessage (payload : Frame.Bytes) : Except RequestError TcpMessage :=
  match TcpMessage.wire.decode payload with
  | .error fault => .error (.decode fault)
  | .ok m =>
    if m.authToken.isEmpty then .error .missingAuthToken
    else if m.room.isPositive then .ok m
    else .error (.invalidRoomId m.room)

/-- Act on a message. -/
def actOn (s : Server) (tier : BusinessTier) (c : ChannelRef) (m : TcpMessage) :
    Progress RequestError :=
  match OpCode.ofInt32? m.op with
  | some .buildTcpConn =>
    if (s.channel? c).any Channel.isJoined then ⟨none, [], s⟩
    else
      match s.join tier c m.authToken m.room with
      | (.error e, calls, s) => ⟨some e, calls, s⟩
      | (.ok _, calls, s) => ⟨none, calls, s⟩
  | some .roomSend => ⟨none, (s.sendRoom tier c m).2, s⟩
  | _ => ⟨none, [], s⟩

/-- Act on a payload. -/
def takePayload (s : Server) (tier : BusinessTier) (c : ChannelRef) (payload : Frame.Bytes) :
    Progress RequestError :=
  match readMessage payload with
  | .error e => ⟨some e, [], s⟩
  | .ok m => actOn s tier c m

/-- Act on payloads in turn, up to one that ends the connection. Each comes with the answers of
the business tier at its time. -/
def takePayloads (s : Server) (c : ChannelRef) :
    List (BusinessTier × Frame.Bytes) → Progress RequestError
  | [] => ⟨none, [], s⟩
  | (tier, payload) :: rest =>
    let p := takePayload s tier c payload
    match p.ended with
    | some _ => p
    | none =>
      let later := takePayloads p.server c rest
      { later with calls := p.calls ++ later.calls }

/-- Act on received bytes; the second part is what stays in the buffer. -/
def receive (d : Frame.Decoder) (s : Server) (tier : BusinessTier) (c : ChannelRef)
    (buffer chunk : Frame.Bytes) : Progress RequestError × Frame.Bytes :=
  let y := d.decodeAll (buffer ++ chunk)
  let p := takePayloads s c (y.payloads.map fun payload => (tier, payload))
  ({ p with ended := p.ended.or (y.error.map .frame) }, y.rest)

/-- What the end of the stream means: bytes of an unfinished frame are an error. -/
def endOfStream (d : Frame.Decoder) (buffer : Frame.Bytes) : RawEnd :=
  match (d.decodeEnd buffer).1 with
  | .error e => .rejected (.frame e)
  | .ok _ => .peerClosed

end ChatRelay.Transport
