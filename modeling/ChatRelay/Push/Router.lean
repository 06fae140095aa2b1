import ChatRelay.Http.ContentType
import ChatRelay.Http.Message
import ChatRelay.Message.Wire
import ChatRelay.Relay.Server

/-!
# The push surface

Other tiers push messages over HTTP. A push is acknowledged in the same way whether or not there
is a recipient. The path is looked at first, then the method, the content type, the length of the
body, and last the body; a body that is not JSON and one that does not fit are told apart. What
stands behind the JSON value of a body is ignored.
-/

namespace ChatRelay.Push

/-- The header that carries the identifier of a request. -/
def requestIdHeader : String := "x-request-id"

/-- The identifier that a reply carries: that of the request, or a fresh one. -/
def replyId (given : Option String) (fresh : String) : String :=
  given.getD fresh

/-- The paths of the push surface. -/
inductive Route where
  | pushSingle
  | pushRoom
  | pushRoomCount
  | pushRoomInfo
  | health
  | stats
  deriving DecidableEq, Repr

namespace Route

def path : Route → String
  | pushSingle => "/rpc/push-single"
  | pushRoom => "/rpc/push-room"
  | pushRoomCount => "/rpc/push-room-count"
  | pushRoomInfo => "/rpc/push-room-info"
  | health => "/health"
  | stats => "/stats"

def all : List Route :=
  [pushSingle, pushRoom, pushRoomCount, pushRoomInfo, health, stats]

/-- The route takes pushes; all others are read. -/
def isPush : Route → Bool
  | health | stats => false
  | _ => true

/-- The route of a request target; a query and a fragment are ignored. -/
def ofTarget? (target : String) : Option Route :=
  let path := String.ofList (Http.targetPath target)
  all.find? fun route => route.path = path

end Route

/-- A push in all its parts. -/
inductive Order where
  | single (user : UserId) (msg : Msg)
  | room (room : RoomId) (msg : Msg)
  | roomCount (room : RoomId) (msg : Msg)
  | roomInfo (room : RoomId) (msg : Msg)
  deriving DecidableEq, Repr

/-- Carry out a push. -/
def Order.run (o : Order) (s : Server) (now : Nat) : Server :=
  match o with
  | single user msg => (s.pushUser now user msg).2
  | room r msg => s.pushRoom now r msg
  | roomCount r msg => s.pushRoomCount now r msg
  | roomInfo r msg => s.pushRoomInfo now r msg

/-- The push that a body asks for on a route. -/
def Order.ofBody? (route : Route) (body : List UInt8) : Option (Except Json.Fault Order) :=
  let toRoom (order : RoomId → Msg → Order) : Except Json.Fault Order :=
    (PushRoom.wire.decodeFront body).map fun p => order p.room p.msg
  match route with
  | .pushSingle => some ((PushUser.wire.decodeFront body).map fun p => single p.user p.msg)
  | .pushRoom => some (toRoom room)
  | .pushRoomCount => some (toRoom roomCount)
  | .pushRoomInfo => some (toRoom roomInfo)
  | .health | .stats => none

/-! ## Replies -/

/-- An object of given members as text. -/
def objectText (members : List (String × Json.Token)) : String :=
  Json.render (.beginObject ::
    (members.flatMap fun (name, value) => [.comma, .text (some name), .colon, value]).tail ++
      [.endObject])

def statsText (s : Stats) : String :=
  let count (n : Nat) : Json.Token := .number (.whole n)
  objectText
    [("buckets", count s.buckets), ("channels", count s.channels), ("rooms", count s.rooms)]

def healthText (serverId : String) : String :=
  objectText [("status", .text (some "ok")), ("serverId", .text (some serverId))]

def bytesOf (s : String) : List UInt8 :=
  s.toUTF8.toList

/-- A reply without a body that matters. -/
def refusal (status : Nat) : Http.Reply :=
  ⟨status, []⟩

/-- The longest body that is read. -/
def maxBody : Nat := 2 * 1024 * 1024

/-- The status for a body that cannot be read. -/
def faultStatus : Json.Fault → Nat
  | .flaw _ => 400
  | .mismatch _ => 422

/-- Answer a request for a push. -/
def respondPush (s : Server) (now : Nat) (route : Route) (r : Http.Request) : Http.Reply × Server :=
  if r.contentType.any Http.isJson then
    if maxBody < r.body.length then (refusal 413, s)
    else
      match Order.ofBody? route r.body with
      | some (.ok order) => (⟨200, bytesOf (Reply.wire.encode .success)⟩, order.run s now)
      | some (.error fault) => (refusal (faultStatus fault), s)
      | none => (refusal 405, s)
  else (refusal 415, s)

/-- Answer a request that reads something. -/
def respondRead (s : Server) (route : Route) : Http.Reply :=
  match route with
  | .health => ⟨200, bytesOf (healthText s.id)⟩
  | .stats => ⟨200, bytesOf (statsText s.stats)⟩
  | _ => refusal 405

/-- Answer a request. -/
def respond (s : Server) (now : Nat) (r : Http.Request) : Http.Reply × Server :=
  match Route.ofTarget? r.target with
  | none => (refusal 404, s)
  | some route =>
    if route.isPush then
      if r.method = "POST" then respondPush s now route r else (refusal 405, s)
    else if r.method = "GET" then (respondRead s route, s)
    else if r.method = "HEAD" then ({ respondRead s route with body := [] }, s)
    else (refusal 405, s)

end ChatRelay.Push
