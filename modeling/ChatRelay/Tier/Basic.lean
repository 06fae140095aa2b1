import ChatRelay.Message.Basic

/-!
# The business tier

The business tier knows who holds a token and keeps the chat. The relay asks it who joins, tells
it who left a room, and hands it chat from raw connections. A call fails either because the tier
could not be reached in time, or by an answer that is no success.

A `BusinessTier` answers every request as the tier would at one moment; what it answers at another
moment is another value.
-/

namespace ChatRelay

/-- Why a call to the business tier failed. -/
inductive TierError where
  | unavailable (reason : String)
  /-- The tier answered with a status outside the successful ones. -/
  | status (code : Nat) (body : String)
  | timeout
  /-- The tier's answer could not be read. -/
  | invalidResponse (reason : String)
  | refused (code : Int32) (msg : String)
  deriving DecidableEq, Repr

namespace TierError

def message : TierError → String
  | unavailable reason => "Business tier unreachable: " ++ reason
  | status code body => "Business tier returned status " ++ toString code ++ ": " ++ body
  | timeout => "Business tier call timed out"
  | invalidResponse reason => "Malformed business tier response: " ++ reason
  | refused code msg =>
    "Business tier refused the call (code " ++ toString code.toInt ++ "): " ++ msg

/-- The tier was reached and answered. -/
def isRemoteAnswer : TierError → Bool
  | unavailable _ | timeout => false
  | status _ _ | invalidResponse _ | refused _ _ => true

end TierError

/-- What the relay asks of the business tier. -/
inductive TierRequest where
  | connect (request : ConnectRequest)
  | disconnect (request : DisconnectRequest)
  | sendRoom (request : SendRoomRequest)
  deriving DecidableEq, Repr

/-- A request that was made, and whether it succeeded. -/
structure TierCall where
  request : TierRequest
  succeeded : Bool
  deriving DecidableEq, Repr

/-- The answers of the business tier at one moment. -/
structure BusinessTier where
  connect : ConnectRequest → Except TierError UserId
  disconnect : DisconnectRequest → Except TierError Unit
  sendRoom : SendRoomRequest → Except TierError Unit

end ChatRelay
