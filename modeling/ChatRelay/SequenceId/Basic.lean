import ChatRelay.Id
import ChatRelay.Text.Instant
import ChatRelay.Text.Quoted

/-!
# Sequence ids

A sequence id orders the messages that the relay delivers. From the high bits down it packs the
milliseconds since `epoch` (41 bits), the worker that issued it (10 bits) and a counter within the
millisecond (12 bits). The id 0 means that none has been assigned yet.
-/

namespace ChatRelay

/-- A time-ordered message number. -/
structure SequenceId where
  value : Int64
  deriving DecidableEq, Repr

namespace SequenceId

/-- Bits of the counter within a millisecond. -/
abbrev counterBits : Nat := 12

/-- Bits of the worker. -/
abbrev workerBits : Nat := 10

/-- The greatest counter within a millisecond. -/
abbrev maxCounter : Nat := 1 <<< counterBits - 1

/-- The greatest worker. -/
abbrev maxWorker : Nat := 1 <<< workerBits - 1

/-- The start of the year 2024 in milliseconds since 1970, from which ids count. -/
abbrev epoch : Int := 1704067200000

/-- No id has been assigned. -/
def unassigned : SequenceId := ⟨0⟩

def isUnassigned (s : SequenceId) : Bool :=
  s.value == 0

/-- The worker that issued the id. -/
def worker (s : SequenceId) : Nat :=
  ((s.value >>> 12) &&& 1023).toInt.toNat

/-- The instant of issue, in milliseconds since 1970. -/
def unixMillis (s : SequenceId) : Int :=
  (s.value >>> 22).toInt + epoch

/-- Assemble an id from its fields. -/
def ofFields (unixMillis : Nat) (worker counter : Nat) : SequenceId :=
  ⟨(Int64.ofInt (unixMillis - epoch) <<< 22) ||| (Int64.ofNat worker <<< 12) |||
    Int64.ofNat counter⟩

def toText (s : SequenceId) : String :=
  toString s.value.toInt

/-- The id in a column of eight characters, set right. -/
def toPaddedText (s : SequenceId) : String :=
  let digits := s.toText
  String.ofList (List.replicate (8 - digits.length) ' ') ++ digits

/-- The instant of issue as text. -/
def issuedAt (s : SequenceId) : String :=
  Text.instant s.unixMillis

/-- What is said about a text that is no sequence id; it shows the text as it was given. -/
def formatMessage (text : String) : String :=
  "invalid sequence id: " ++ Text.quoted text

/-- Read a decimal 64-bit integer between blanks. -/
def ofText? (text : String) : Option SequenceId :=
  (readId? text).map mk

end SequenceId

end ChatRelay
