import ChatRelay.Registry.Action

/-!
# Keeping entries announced

A keeper announces its entries when it first runs. Once these calls are made, however long they
took, it starts a ticker, and refreshes all entries once for every interval that passes from then
on; it withdraws them when it is stopped. Whether an action succeeds does not matter to it: a failed
one is made up for by the next round. A ticker with an interval of zero cannot be started: such a
keeper announces its entries and then ends, and leaves them behind. Times are numbers of one unit.
-/

namespace ChatRelay

/-- How far a keeper is. -/
inductive KeeperPhase where
  /-- The keeper has not run yet. -/
  | waiting
  /-- The keeper announces its entries, and has not started its ticker. -/
  | announcing
  /-- The ticker was started at a time, and so many rounds of refreshes were made since. -/
  | running (start rounds : Nat)
  | stopped
  deriving DecidableEq, Repr

/-- What keeps the entries of an instance announced. -/
structure Keeper where
  entries : List ServiceEntry
  interval : Nat
  phase : KeeperPhase
  deriving DecidableEq, Repr

namespace Keeper

/-- A keeper that has not run. -/
def new (entries : List ServiceEntry) (interval : Nat) : Keeper :=
  ⟨entries, interval, .waiting⟩

/-- Let the keeper run at the time `now`: the actions that are due. It is to run again when they are
carried out. -/
def run (k : Keeper) (now : Nat) : List RegistryAction × Keeper :=
  match k.phase with
  | .waiting => (RegistryAction.each .register k.entries, { k with phase := .announcing })
  | .announcing => ([], { k with phase := if k.interval = 0 then .stopped else .running now 0 })
  | .running start rounds =>
    let due := (now - start) / k.interval
    ((List.replicate (due - rounds) (RegistryAction.each .refresh k.entries)).flatten,
      { k with phase := .running start (max due rounds) })
  | .stopped => ([], k)

/-- Let the keeper run where actions take no time: it runs again at once. -/
def runInstantly (k : Keeper) (now : Nat) : List RegistryAction × Keeper :=
  let (actions, k) := k.run now
  let (more, k) := k.run now
  (actions ++ more, k)

/-- Stop the keeper at the time `now`. It does what is due before it withdraws its entries, which it
does not get to without a ticker; only the first call has an effect. -/
def stop (k : Keeper) (now : Nat) : List RegistryAction × Keeper :=
  let (actions, k) := k.run now
  match k.phase with
  | .stopped => (actions, k)
  | _ =>
    let withdrawals := if k.interval = 0 then [] else RegistryAction.each .deregister k.entries
    (actions ++ withdrawals, { k with phase := .stopped })

end Keeper

end ChatRelay
