import ChatRelay.Push.Router
import ChatRelay.Text.Split

/-!
# The push client

The counterpart of the push surface: how a caller words a push, and what it makes of the outcome.
-/

namespace ChatRelay.Push

/-- Why a push failed. -/
inductive ClientError where
  /-- There was no reply, or one that could not be read. -/
  | http
  | status (code : Nat)
  | reply (code : Int32) (msg : String)
  deriving DecidableEq, Repr

/-- The base of a URL, without the slashes at its end. -/
def baseUrl (url : String) : String :=
  Text.trimEnd '/' url

/-- The route of a push. -/
def Order.route : Order → Route
  | single .. => .pushSingle
  | room .. => .pushRoom
  | roomCount .. => .pushRoomCount
  | roomInfo .. => .pushRoomInfo

/-- The body of a push. -/
def Order.body : Order → String
  | single user msg => PushUser.wire.encode ⟨user, msg⟩
  | room r msg | roomCount r msg | roomInfo r msg => PushRoom.wire.encode ⟨r, msg⟩

/-- The request that makes a push; `basePath` is what the base URL has behind its host. -/
def Order.request (basePath : String) (o : Order) : Http.Request :=
  Http.post (baseUrl basePath ++ o.route.path) o.body

/-- What the outcome of a push means. -/
def accept : Http.Outcome → Except ClientError Unit
  | .unreachable _ | .timeout => .error .http
  | .reply r =>
    if r.isSuccess then
      match Reply.wire.decode r.body with
      | .error _ => .error .http
      | .ok reply => if reply.isSuccess then .ok () else .error (.reply reply.code reply.msg)
    else .error (.status r.status)

end ChatRelay.Push
