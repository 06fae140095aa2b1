import ChatRelay.Text.Blank
import ChatRelay.Text.Decimal

/-!
# Identifiers

Users and rooms are named by signed 64-bit integers. As text an identifier is a decimal literal
between optional blanks. The user 0 stands for a connection that has not joined, and the room -1
for "no room".
-/

namespace ChatRelay

/-- Read a signed 64-bit integer between blanks. -/
def readId? (text : String) : Option Int64 :=
  Text.Decimal.int64? (Text.trimChars text.toList)

/-- What is said about a text that is no identifier. -/
def idFormatMessage : String := "invalid identifier format"

/-- A user, as the business tier numbers them. -/
structure UserId where
  value : Int64
  deriving DecidableEq, Repr

/-- A chat room. -/
structure RoomId where
  value : Int64
  deriving DecidableEq, Repr

namespace UserId

/-- The user of a connection that has not joined. -/
def unassigned : UserId := ⟨0⟩

def isUnassigned (u : UserId) : Bool :=
  u.value == 0

def ofText? (text : String) : Option UserId :=
  (readId? text).map mk

def toText (u : UserId) : String :=
  toString u.value.toInt

end UserId

namespace RoomId

/-- The room of a connection that joined without one. -/
def none : RoomId := ⟨-1⟩

/-- The identifier names a room. -/
def isRoom (r : RoomId) : Bool :=
  r != none

def isPositive (r : RoomId) : Bool :=
  0 < r.value

def ofText? (text : String) : Option RoomId :=
  (readId? text).map mk

def toText (r : RoomId) : String :=
  toString r.value.toInt

end RoomId

end ChatRelay
