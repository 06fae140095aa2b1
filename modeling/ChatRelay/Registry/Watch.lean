import ChatRelay.Registry.Redis.Announcer

/-!
# Watching the registry

A watcher resolves the registry when it starts and once for every interval that passes. It
publishes a snapshot only if it differs from the last one, and keeps the last one when the
registry cannot be resolved. With an interval of zero there are no rounds: such a watcher ends
before its first poll, and a subscriber finds that nothing will be published. Times are numbers of
one unit.
-/

namespace ChatRelay

/-- What a watcher has published. -/
structure Watch where
  interval : Nat
  start : Nat
  /-- Polls so far. -/
  polls : Nat
  snapshot : Snapshot
  /-- Something was published since the subscriber looked last. -/
  isChanged : Bool
  deriving DecidableEq, Repr

namespace Watch

/-- A watcher that starts at a time and has published the empty snapshot. -/
def new (interval start : Nat) : Watch :=
  ⟨interval, start, 0, [], false⟩

/-- Take in the outcome of a poll. -/
def poll {ε : Type} (w : Watch) (outcome : Except ε Snapshot) : Watch :=
  let w := { w with polls := w.polls + 1 }
  match outcome with
  | .error _ => w
  | .ok snapshot =>
    if snapshot = w.snapshot then w else { w with snapshot, isChanged := true }

/-- The watcher polls; one with an interval of zero never does. -/
def isAlive (w : Watch) : Bool :=
  w.interval ≠ 0

/-- The polls that are due at a time. -/
def due (w : Watch) (now : Nat) : Nat :=
  if w.isAlive then (now - w.start) / w.interval + 1 - w.polls else 0

/-- Make so many polls. -/
def pollMany {σ : Type} (b : Redis.Backend σ) (a : Redis.Announcer) :
    Nat → Watch → σ → Watch × σ
  | 0, w, s => (w, s)
  | n + 1, w, s =>
    let (outcome, s) := a.resolve b s
    pollMany b a n (w.poll outcome) s

/-- Make the polls that are due. -/
def run {σ : Type} (b : Redis.Backend σ) (a : Redis.Announcer) (w : Watch)
    (now : Nat) (s : σ) : Watch × σ :=
  pollMany b a (w.due now) w s

/-- The subscriber looks: whether something new was published, if there is still a watcher that
could publish. -/
def look (w : Watch) : Option Bool × Watch :=
  if w.isAlive then (some w.isChanged, { w with isChanged := false }) else (none, w)

end Watch

end ChatRelay
