import ChatRelay.Http.Message
import ChatRelay.Message.Wire
import ChatRelay.Text.Split
import ChatRelay.Tier.Basic

/-!
# The business tier over HTTP

Each call is a POST with the request as its body. The answer to a join holds the user, and user 0
if it does not say; the other calls are acknowledged with a code, of which 0 is success.
-/

namespace ChatRelay.TierClient

/-- The path of a call. -/
def path : TierRequest → String
  | .connect _ => "/connect"
  | .disconnect _ => "/disconnect"
  | .sendRoom _ => "/push-room"

/-- The body of a call. -/
def body : TierRequest → String
  | .connect r => ConnectRequest.wire.encode r
  | .disconnect r => DisconnectRequest.wire.encode r
  | .sendRoom r => SendRoomRequest.wire.encode r

/-- The request that makes a call; `basePath` is what the base URL has behind its host. -/
def request (basePath : String) (r : TierRequest) : Http.Request :=
  Http.post (Text.trimEnd '/' basePath ++ path r) (body r)

/-- The user in the answer to a join. -/
def userReply : Json.Codec UserId :=
  (Json.Fields.cons "userId" UserId.wire (some .unassigned) .nil).codec.map
    (fun (user, ()) => user) (fun user => (user, ()))

/-- An acknowledgement, whose message may be left out. -/
def acknowledgement : Json.Codec Reply :=
  (Json.Fields.cons "code" .int32 none <| .cons "msg" .text (some "") .nil).codec.map
    (fun (code, msg, ()) => ⟨code, msg⟩) (fun r => (r.code, r.msg, ()))

/-- What a codec reads in the outcome of a call. -/
def readReply {α : Type} (codec : Json.Codec α) : Http.Outcome → Except TierError α
  | .unreachable reason => .error (.unavailable reason)
  | .timeout => .error .timeout
  | .reply r =>
    if r.isSuccess then
      match codec.decode r.body with
      | .ok a => .ok a
      | .error _ => .error (.invalidResponse "error decoding response body")
    else .error (.status r.status r.text)

/-- The user who joins. -/
def readUser (o : Http.Outcome) : Except TierError UserId :=
  readReply userReply o

/-- Whether a call was acknowledged as a success. -/
def readAcknowledgement (o : Http.Outcome) : Except TierError Unit :=
  match readReply acknowledgement o with
  | .error e => .error e
  | .ok r => if r.isSuccess then .ok () else .error (.refused r.code r.msg)

end ChatRelay.TierClient
