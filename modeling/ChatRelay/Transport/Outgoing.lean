import ChatRelay.Frame.Basic
import ChatRelay.Message.Basic

/-!
# What a connection's writer sends

A writer sends the bodies of the messages in its mailbox, and a heartbeat at regular times. On a
raw connection each goes into a frame of its own; a body that does not fit into a frame is lost,
which does not end the connection. On a WebSocket connection a body is a text message and a
heartbeat is a ping. A writer that cannot start its timer is gone at once.
-/

namespace ChatRelay.Transport

/-- What a writer sends. -/
inductive Outgoing where
  | message (msg : Msg)
  | heartbeat
  deriving DecidableEq, Repr

/-- The payload of a heartbeat. -/
def heartbeatText : String := "ping msg"

namespace Outgoing

def text : Outgoing → String
  | message msg => msg.body
  | heartbeat => heartbeatText

/-- The bytes that are put into a frame. -/
def payload (o : Outgoing) : Frame.Bytes :=
  o.text.toUTF8.toList

/-- The frame on a raw connection. -/
def frame (o : Outgoing) : Except FrameError Frame.Bytes :=
  Frame.pack Frame.maxEncodable o.payload

/-- The bytes on a raw connection. -/
def bytes (o : Outgoing) : Frame.Bytes :=
  match o.frame with
  | .ok frame => frame
  | .error _ => []

end Outgoing

/-- All bytes that a writer puts on a raw connection. -/
def stream (os : List Outgoing) : Frame.Bytes :=
  os.flatMap Outgoing.bytes

/-- A timer takes this time between two heartbeats; it refuses none at all. -/
def isPeriod (period : Nat) : Bool :=
  period ≠ 0

/-- A heartbeat is due in the second that ends at `now`. -/
def isHeartbeatDue (period acceptedAt now : Nat) : Bool :=
  acceptedAt < now && (now - acceptedAt) % period == 0

end ChatRelay.Transport
