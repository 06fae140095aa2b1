import ChatRelay.Registry.Redis.Store
import ChatRelay.Table

/-!
# A Redis server for rehearsals

A stand-in for trials without a server. It keeps values that never expire, answers chosen commands
with an error, pages through its keys in order or by a script, and remembers the commands it was
sent. While it cannot be reached every command fails before it is sent.
-/

namespace ChatRelay.Redis

/-- The state of the stand-in. -/
structure Rehearsal where
  store : Table String String
  /-- The error with which commands of a name are answered. -/
  failing : Table String String
  /-- The pages of a scripted listing. -/
  script : Option (List (List String))
  isReachable : Bool
  /-- The commands since they were last asked for, oldest first. -/
  commands : List Command

namespace Rehearsal

def new (isReachable : Bool) : Rehearsal :=
  ⟨.empty, .empty, none, isReachable, []⟩

/-- The keys of a page of size `scanBatch`. -/
def storedPage (r : Rehearsal) (cursor : Nat) (start : String) : Reply :=
  let keys := distinct (r.store.keys.filter fun key => start.toList.isPrefixOf key.toList)
  let later := keys.drop (cursor * scanBatch)
  .page (if later.length ≤ scanBatch then 0 else cursor + 1) (later.take scanBatch)

/-- The answer to a command that does not fail, and what it changes. -/
def answer (r : Rehearsal) : Command → Reply × Rehearsal
  | .setExpiring key _ value => (.done, { r with store := r.store.insert key value })
  | .expire key _ => (.found (r.store.find? key).isSome, r)
  | .delete key => (.done, { r with store := r.store.erase key })
  | .scan cursor pattern =>
    match r.script with
    | some pages =>
      (.page (if cursor + 1 < pages.length then cursor + 1 else 0) (pages.getD cursor []), r)
    | none => (r.storedPage cursor (String.ofList (pattern.toList.dropLast)), r)
  | .getMany keys => (.values (keys.map r.store.find?), r)

/-- The stand-in as a backend. -/
def backend : Backend Rehearsal where
  perform r command :=
    if r.isReachable then
      let r := { r with commands := r.commands ++ [command] }
      match r.failing.find? command.name with
      | some reason => (.error (.command reason), r)
      | none =>
        let (reply, r) := r.answer command
        (.ok reply, r)
    else (.error (.checkout "connection refused"), r)

/-- The commands since this was last asked. -/
def takeCommands (r : Rehearsal) : List Command × Rehearsal :=
  (r.commands, { r with commands := [] })

end Rehearsal

end ChatRelay.Redis
