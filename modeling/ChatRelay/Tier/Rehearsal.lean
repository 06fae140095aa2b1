import ChatRelay.Tier.Basic

/-!
# A business tier for rehearsals

A stand-in for trials without a business tier: the holder of the token "token-" followed by a user
identifier is that user, nobody holds any other token, and every call fails in the same way while
a fault is set.
-/

namespace ChatRelay

/-- A way in which all calls fail. -/
inductive TierFault where
  | unavailable
  | status
  | timeout
  | invalid
  | refused
  deriving DecidableEq, Repr

def TierFault.ofName? : String → Option TierFault
  | "unavailable" => some unavailable
  | "status" => some status
  | "timeout" => some timeout
  | "invalid" => some invalid
  | "refused" => some refused
  | _ => none

def TierFault.error : TierFault → TierError
  | unavailable => .unavailable "stub offline"
  | status => .status 503 "down"
  | timeout => .timeout
  | invalid => .invalidResponse "not json"
  | refused => .refused 7 "no"

namespace BusinessTier

/-- The user that a token of a rehearsal stands for. -/
def userOfToken (token : String) : UserId :=
  match token.toList with
  | 't' :: 'o' :: 'k' :: 'e' :: 'n' :: '-' :: rest =>
    (UserId.ofText? (String.ofList rest)).getD .unassigned
  | _ => .unassigned

/-- The stand-in, which fails while there is a fault. -/
def rehearsal (fault : Option TierFault) : BusinessTier :=
  let attempt {α : Type} (a : α) : Except TierError α :=
    match fault with
    | some f => .error f.error
    | none => .ok a
  ⟨fun request => attempt (userOfToken request.authToken), fun _ => attempt (), fun _ => attempt ()⟩

end BusinessTier

end ChatRelay
