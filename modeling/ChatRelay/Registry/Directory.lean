import ChatRelay.Registry.Entry
import ChatRelay.Table

/-!
# The directory of instances

A delivery tier keeps a client for every announced transport, by server. The directory is built
anew from each snapshot; entries without a server or a type are left out. The clients of a server
are picked in turn, from the first one after each new snapshot.
-/

namespace ChatRelay

/-- The clients of one server, which are picked in turn. -/
structure Instances (α : Type) where
  clients : List α
  /-- Picks so far, in 64 bits. -/
  picks : UInt64
  deriving DecidableEq, Repr

namespace Instances

variable {α : Type}

/-- The next client in turn. -/
def pick (i : Instances α) : Option α × Instances α :=
  match i.clients[i.picks.toNat % i.clients.length]? with
  | some a => (some a, { i with picks := i.picks + 1 })
  | none => (none, i)

end Instances

/-- The clients of all known servers. -/
structure Directory (α : Type) where
  servers : Table String (Instances α)

namespace Directory

variable {α : Type}

def empty : Directory α := ⟨.empty⟩

/-- Add the client of an entry, unless the entry is incomplete. -/
def add (client : ServiceEntry → α) (d : Directory α) (e : ServiceEntry) : Directory α :=
  if e.serverId.isEmpty ∨ e.serverType.isEmpty then d
  else
    let i := (d.servers.find? e.serverId).getD ⟨[], 0⟩
    ⟨d.servers.insert e.serverId { i with clients := i.clients ++ [client e] }⟩

/-- The directory of a snapshot. -/
def ofSnapshot (client : ServiceEntry → α) (snapshot : Snapshot) : Directory α :=
  snapshot.foldl (add client) empty

/-- Pick a client of a server. -/
def clientFor (d : Directory α) (server : String) : Option α × Directory α :=
  match d.servers.find? server with
  | none => (none, d)
  | some i =>
    let (picked, i) := i.pick
    (picked, ⟨d.servers.insert server i⟩)

/-- Pick a client of every server. -/
def allClients (d : Directory α) : List α × Directory α :=
  d.servers.keys.foldl
    (fun (picked, d) server =>
      let (client, d) := d.clientFor server
      (picked ++ client.toList, d))
    ([], d)

/-- The number of known servers. -/
def size (d : Directory α) : Nat :=
  d.servers.size

def describe (d : Directory α) : String :=
  "InstanceDirectory \x7b servers: " ++ toString d.size ++ " \x7d"

end Directory

/-- A directory, and whether it follows published snapshots. -/
structure FollowedDirectory (α : Type) where
  directory : Directory α
  isFollowing : Bool

namespace FollowedDirectory

variable {α : Type} (client : ServiceEntry → α)

/-- Replace the directory by that of a snapshot. -/
def apply (f : FollowedDirectory α) (snapshot : Snapshot) : FollowedDirectory α :=
  { f with directory := .ofSnapshot client snapshot }

/-- Begin to follow, from a snapshot on. -/
def follow (f : FollowedDirectory α) (snapshot : Snapshot) : FollowedDirectory α :=
  { f.apply client snapshot with isFollowing := true }

/-- Publish a snapshot; it is applied, and the publisher told so, if it is followed. -/
def publish (f : FollowedDirectory α) (snapshot : Snapshot) : Bool × FollowedDirectory α :=
  (f.isFollowing, if f.isFollowing then f.apply client snapshot else f)

/-- The publisher goes away. -/
def stop (f : FollowedDirectory α) : FollowedDirectory α :=
  { f with isFollowing := false }

end FollowedDirectory

end ChatRelay
