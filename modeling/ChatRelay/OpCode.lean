/-!
# Operation codes

The code in a message says what the message is for. The relay's clients and the tiers around it
share the numbers.
-/

namespace ChatRelay

/-- What a message is for. -/
inductive OpCode where
  /-- A message to one user. -/
  | singleSend
  /-- Chat in a room. -/
  | roomSend
  /-- The number of users in a room. -/
  | roomCountSend
  /-- The users in a room. -/
  | roomInfoSend
  /-- A join over a raw connection. -/
  | buildTcpConn
  deriving DecidableEq, Repr

namespace OpCode

def toInt32 : OpCode → Int32
  | singleSend => 2
  | roomSend => 3
  | roomCountSend => 4
  | roomInfoSend => 5
  | buildTcpConn => 6

def ofInt32? (n : Int32) : Option OpCode :=
  if n = 2 then some singleSend
  else if n = 3 then some roomSend
  else if n = 4 then some roomCountSend
  else if n = 5 then some roomInfoSend
  else if n = 6 then some buildTcpConn
  else none

def name : OpCode → String
  | singleSend => "SingleSend"
  | roomSend => "RoomSend"
  | roomCountSend => "RoomCountSend"
  | roomInfoSend => "RoomInfoSend"
  | buildTcpConn => "BuildTcpConn"

def toText (op : OpCode) : String :=
  op.name ++ "(" ++ toString op.toInt32.toInt ++ ")"

/-- What is said about a number that is no operation code. -/
def unknownMessage (n : Int32) : String :=
  "unknown op code: " ++ toString n.toInt

theorem ofInt32?_toInt32 (op : OpCode) : ofInt32? op.toInt32 = some op := by
  cases op <;> rfl

theorem ofInt32?_eq_some_iff {n : Int32} {op : OpCode} :
    ofInt32? n = some op ↔ n = op.toInt32 := by
  constructor
  · intro h
    unfold ofInt32? at h
    (repeat' split at h) <;> cases h <;> assumption
  · intro h
    rw [h, ofInt32?_toInt32]

end OpCode

end ChatRelay
