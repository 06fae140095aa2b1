import ChatRelay.Registry.Redis.Store

/-!
# Entries on a Redis server

Every entry stands under a key of its own, which expires unless it is refreshed. A refresh only
extends the lifetime of a key that is there, and writes the entry again if the key is gone. To
resolve is to list all keys under the base path and to read the entries back; keys without
complete metadata are passed over.
-/

namespace ChatRelay.Redis

/-- Where entries stand, and how long they live. -/
structure Announcer where
  basePath : String
  ttlMillis : Nat
  deriving DecidableEq, Repr

namespace Announcer

variable {σ : Type} (b : Backend σ)

/-- The lifetime of a key, at least one second. -/
def lifetime (a : Announcer) : Nat :=
  max a.ttlMillis 1000

def register (a : Announcer) (e : ServiceEntry) (s : σ) : Except Failure Unit × σ :=
  putExpiring b (e.key a.basePath) e.metadata a.lifetime s

def refresh (a : Announcer) (e : ServiceEntry) (s : σ) : Except Failure Unit × σ :=
  match extend b (e.key a.basePath) a.lifetime s with
  | (.error f, s) => (.error f, s)
  | (.ok true, s) => (.ok (), s)
  | (.ok false, s) => a.register b e s

def deregister (a : Announcer) (e : ServiceEntry) (s : σ) : Except Failure Unit × σ :=
  remove b (e.key a.basePath) s

/-- Carry out an action. -/
def act (a : Announcer) (action : RegistryAction) (s : σ) : Except Failure Unit × σ :=
  match action.verb with
  | .register => a.register b action.entry s
  | .refresh => a.refresh b action.entry s
  | .deregister => a.deregister b action.entry s

/-- The entries that stand under keys. -/
def snapshotOf (stored : List (String × String)) : Snapshot :=
  (stored.filterMap fun (key, metadata) =>
    ServiceEntry.ofMetadata? (ServiceEntry.addressOfKey key) metadata).mergeSort ServiceEntry.le

/-- All announced entries. -/
def resolve (a : Announcer) (s : σ) : Except Failure Snapshot × σ :=
  match entriesWithPrefix b (ServiceEntry.keyBase a.basePath) s with
  | (.error f, s) => (.error f, s)
  | (.ok stored, s) => (.ok (snapshotOf stored), s)

end Announcer

end ChatRelay.Redis
