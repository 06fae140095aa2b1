import ChatRelay.Frame.Basic
import ChatRelay.Json.Fault
import ChatRelay.Membership.Bucket
import ChatRelay.Tier.Basic

/-!
# Refused requests

Why a client's request is refused. The kind is a stable label for logs, the message is for people.
-/

namespace ChatRelay

/-- Why a client's request is refused. -/
inductive RequestError where
  | missingAuthToken
  /-- A raw connection names a room that is not positive. -/
  | invalidRoomId (room : RoomId)
  /-- The business tier knows no user for the token. -/
  | rejected
  /-- A room is spoken to before the join. -/
  | notJoined
  | decode (fault : Json.Fault)
  | frame (error : FrameError)
  | tier (error : TierError)
  | bucket (error : BucketError)
  deriving DecidableEq, Repr

/-- A fault in the words of a log. -/
def Json.Fault.describe : Json.Fault → String
  | .flaw .truncated => "the text ends too early"
  | .flaw .malformed => "the text is not JSON"
  | .mismatch (some detail) => detail
  | .mismatch none => "the value does not fit"

namespace RequestError

def message : RequestError → String
  | missingAuthToken => "Missing auth token"
  | invalidRoomId room => "Invalid room id: " ++ room.toText
  | rejected => "Join rejected by business tier"
  | notJoined => "Connection has not joined"
  | decode fault => "Malformed payload: " ++ fault.describe
  | frame error => "Frame error: " ++ error.message
  | tier error => "Business tier error: " ++ error.message
  | bucket error => "Bucket error: " ++ error.message

def kind : RequestError → String
  | missingAuthToken => "missing_auth_token"
  | invalidRoomId _ => "invalid_room_id"
  | rejected => "rejected"
  | notJoined => "not_joined"
  | decode _ => "decode"
  | frame _ => "frame"
  | tier _ => "logic"
  | bucket _ => "bucket"

end RequestError

end ChatRelay
