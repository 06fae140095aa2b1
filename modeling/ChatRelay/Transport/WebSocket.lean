import ChatRelay.Transport.Raw

/-!
# Reading a WebSocket connection

The first text or binary message asks to join, pings and pongs in front of it do not count. A
request that cannot be read and a join that fails end the connection. After the join only the end
of the connection matters: a closing message, the end of the stream, a failure of the transport,
or silence for too long.
-/

namespace ChatRelay.Transport

/-- What a WebSocket client sends. -/
inductive WsMessage where
  | text (content : String)
  | binary (content : Frame.Bytes)
  | ping
  | pong
  | close
  deriving DecidableEq, Repr

/-- What a reader waits for. -/
inductive WsInput where
  | message (message : WsMessage)
  | endOfStream
  | failure
  /-- Nothing came for as long as a client may be silent. -/
  | silence
  deriving DecidableEq, Repr

/-- How a WebSocket connection ended. -/
inductive WsEnd where
  | joinFailed (error : RequestError)
  | peerClosed
  | deadline
  | failure
  deriving DecidableEq, Repr

def WsEnd.describe : WsEnd → String
  | joinFailed error => "ws:join_failed:" ++ error.kind
  | peerClosed => "ws:ended:PeerClosed"
  | deadline => "ws:ended:Deadline"
  | failure => "ws:ended:Transport"

/-- The content of a message that may ask to join. -/
def WsMessage.content? : WsMessage → Option Frame.Bytes
  | text content => some content.toUTF8.toList
  | binary content => some content
  | ping | pong | close => none

/-- Act on a request to join. -/
def joinBy (s : Server) (tier : BusinessTier) (c : ChannelRef) (content : Frame.Bytes) :
    Progress WsEnd :=
  match JoinRequest.wire.decode content with
  | .error fault => ⟨some (.joinFailed (.decode fault)), [], s⟩
  | .ok request =>
    match s.join tier c request.authToken request.room with
    | (.error e, calls, s) => ⟨some (.joinFailed e), calls, s⟩
    | (.ok _, calls, s) => ⟨none, calls, s⟩

/-- The end that an input means at any time. -/
def WsInput.end? : WsInput → Option WsEnd
  | .message .close | .endOfStream => some .peerClosed
  | .failure => some .failure
  | .silence => some .deadline
  | .message _ => none

/-- Act on an input; `hasAsked` says that the client has asked to join. The second part says so
afterwards. -/
def takeInput (s : Server) (tier : BusinessTier) (c : ChannelRef) (hasAsked : Bool)
    (input : WsInput) : Progress WsEnd × Bool :=
  match input.end? with
  | some e => (⟨some e, [], s⟩, hasAsked)
  | none =>
    match input with
    | .message m =>
      match m.content? with
      | some content =>
        if hasAsked then (⟨none, [], s⟩, true) else (joinBy s tier c content, true)
      | none => (⟨none, [], s⟩, hasAsked)
    | _ => (⟨none, [], s⟩, hasAsked)

/-- Act on inputs in turn, up to one that ends the connection. Each comes with the answers of the
business tier at its time. -/
def takeInputs (s : Server) (c : ChannelRef) (hasAsked : Bool) :
    List (BusinessTier × WsInput) → Progress WsEnd × Bool
  | [] => (⟨none, [], s⟩, hasAsked)
  | (tier, input) :: rest =>
    let (p, hasAsked) := takeInput s tier c hasAsked input
    match p.ended with
    | some _ => (p, hasAsked)
    | none =>
      let (later, hasAsked) := takeInputs p.server c hasAsked rest
      ({ later with calls := p.calls ++ later.calls }, hasAsked)

end ChatRelay.Transport
