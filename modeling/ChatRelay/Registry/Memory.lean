import ChatRelay.Registry.Action

/-!
# The registry in memory

The registry of an instance that has no backend: the announced entries, each once, in the order of
their announcement, and the number of refreshes. A refresh announces an entry that is missing.
-/

namespace ChatRelay

/-- Entries kept in memory. -/
structure MemoryRegistry where
  entries : List ServiceEntry
  refreshes : Nat
  deriving DecidableEq, Repr

namespace MemoryRegistry

def empty : MemoryRegistry := ⟨[], 0⟩

def register (r : MemoryRegistry) (e : ServiceEntry) : MemoryRegistry :=
  if e ∈ r.entries then r else { r with entries := r.entries ++ [e] }

def refresh (r : MemoryRegistry) (e : ServiceEntry) : MemoryRegistry :=
  let r := r.register e
  { r with refreshes := r.refreshes + 1 }

def deregister (r : MemoryRegistry) (e : ServiceEntry) : MemoryRegistry :=
  { r with entries := r.entries.filter (· ≠ e) }

def resolve (r : MemoryRegistry) : Snapshot :=
  r.entries

/-- Carry out an action. -/
def act (r : MemoryRegistry) (a : RegistryAction) : MemoryRegistry :=
  match a.verb with
  | .register => r.register a.entry
  | .refresh => r.refresh a.entry
  | .deregister => r.deregister a.entry

end MemoryRegistry

end ChatRelay
