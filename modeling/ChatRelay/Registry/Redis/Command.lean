import ChatRelay.Registry.Action
import ChatRelay.Text.Duration

/-!
# Commands to a Redis server

The few commands that the registry needs, the replies to them, and what can go wrong before and
after a command is sent. A `Backend` is anything that replies to commands and changes while it
does: a server, or a script of replies.
-/

namespace ChatRelay.Redis

/-- A command. -/
inductive Command where
  /-- Store a value for so many seconds. -/
  | setExpiring (key : String) (seconds : Nat) (value : String)
  /-- Give a key so many seconds from now. -/
  | expire (key : String) (seconds : Nat)
  | delete (key : String)
  /-- Ask for the next page of the keys that match a pattern. -/
  | scan (cursor : Nat) (pattern : String)
  | getMany (keys : List String)
  deriving DecidableEq, Repr

/-- Keys asked for with each page. -/
def scanBatch : Nat := 100

def Command.name : Command → String
  | setExpiring .. => "SETEX"
  | expire .. => "EXPIRE"
  | delete .. => "DEL"
  | scan .. => "SCAN"
  | getMany .. => "MGET"

/-- The words in which a command is sent. -/
def Command.words (c : Command) : List String :=
  c.name ::
    match c with
    | setExpiring key seconds value => [key, toString seconds, value]
    | expire key seconds => [key, toString seconds]
    | delete key => [key]
    | scan cursor pattern =>
      [toString cursor, "MATCH", pattern, "COUNT", toString scanBatch]
    | getMany keys => keys

/-- A reply to a command. -/
inductive Reply where
  | done
  /-- Whether the key was there. -/
  | found (found : Bool)
  /-- A page of keys, and where the next one begins; 0 ends the listing. -/
  | page (next : Nat) (keys : List String)
  /-- The value of each key that was asked for, in the order of the keys. -/
  | values (values : List (Option String))
  deriving DecidableEq, Repr

/-- Why an operation failed. -/
inductive Failure where
  | settings (reason : String)
  /-- There is no connection. -/
  | checkout (reason : String)
  /-- The server answered with an error. -/
  | command (reason : String)
  /-- A lifetime is too short, or too long for the server. -/
  | lifetime (millis : Nat)
  deriving DecidableEq, Repr

def Failure.message : Failure → String
  | settings reason => "Invalid Redis pool settings: " ++ reason
  | checkout reason => "No Redis connection available: " ++ reason
  | command reason => "Redis command failed: " ++ reason
  | lifetime millis => "TTL must be at least one second, got " ++ Text.duration millis

/-- The failure of a registry that is kept on a server. -/
def Failure.toRegistryError (f : Failure) : RegistryError :=
  .backend f.message

/-- What replies to commands. -/
structure Backend (σ : Type) where
  perform : σ → Command → Except Failure Reply × σ

/-- The failure of a reply of another kind than the command asks for. -/
def Failure.oddReply : Failure :=
  .command "unexpected reply"

end ChatRelay.Redis
