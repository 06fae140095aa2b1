import ChatRelay.Registry.Keepalive
import ChatRelay.Registry.Memory

/-!
# A keeper in rehearsal

A stand-in for trials without a backend: a keeper, a clock, and a registry in memory that refuses
some kinds of actions. The keeper does not notice what is refused.
-/

namespace ChatRelay

/-- A keeper over a registry that refuses some actions. -/
structure KeeperRehearsal where
  keeper : Keeper
  registry : MemoryRegistry
  clock : Nat
  refused : List RegistryVerb
  deriving Repr

namespace KeeperRehearsal

/-- A keeper that has not run, over an empty registry. -/
def new (keeper : Keeper) (refused : List RegistryVerb) : KeeperRehearsal :=
  ⟨keeper, .empty, 0, refused⟩

/-- The registry carries out those actions that it does not refuse. -/
def perform (k : KeeperRehearsal) (actions : List RegistryAction) : KeeperRehearsal :=
  let done := actions.filter fun a => a.verb ∉ k.refused
  { k with registry := done.foldl MemoryRegistry.act k.registry }

/-- Let the keeper run after some time: the actions it tried. -/
def run (k : KeeperRehearsal) (time : Nat) : List RegistryAction × KeeperRehearsal :=
  let clock := k.clock + time
  let (actions, keeper) := k.keeper.runInstantly clock
  (actions, { k with keeper, clock }.perform actions)

/-- Stop the keeper: the actions it tried. -/
def stop (k : KeeperRehearsal) : List RegistryAction × KeeperRehearsal :=
  let (actions, keeper) := k.keeper.stop k.clock
  (actions, { k with keeper }.perform actions)

end KeeperRehearsal

end ChatRelay
