import ChatRelay.Membership.Bucket

/-!
# The hub

The hub is all buckets over one roster. It also remembers which workers have been given jobs since
the workers ran last, in the order in which each was given its first one: in this order they run,
and each empties its queue before the next one starts.
-/

namespace ChatRelay

/-- A worker of a bucket. -/
structure WorkerRef where
  bucket : Nat
  worker : Nat
  deriving DecidableEq, Repr

/-- All buckets over one roster. -/
structure Hub where
  roster : Roster
  buckets : List Bucket
  /-- The workers that have jobs, in the order in which they got the first one. -/
  awake : List WorkerRef
  deriving DecidableEq, Repr

namespace Hub

/-- Buckets without users, numbered from 0; there is at least one. -/
def new (config : BucketConfig) : Hub :=
  ⟨.empty, (List.range (max config.count 1)).map fun id => .new id config, []⟩

/-- Operate on a bucket and the roster. -/
def onBucket {ε : Type} (h : Hub) (index : Nat)
    (f : Bucket → Roster → Except ε (Bucket × Roster)) : Except ε Hub :=
  match h.buckets[index]? with
  | none => .ok h
  | some b =>
    (f b h.roster).map fun (b, roster) => { h with roster, buckets := h.buckets.set index b }

/-- Register a channel in a bucket. -/
def put (h : Hub) (index : Nat) (user : UserId) (room : RoomId) (c : ChannelRef) :
    Except BucketError Hub :=
  h.onBucket index fun b s => b.put s user room c

/-- Undo a registration in a bucket. -/
def remove (h : Hub) (index : Nat) (c : ChannelRef) : Option Departure × Hub :=
  match h.buckets[index]? with
  | none => (none, h)
  | some b =>
    let (departure, b, roster) := b.remove h.roster c
    (departure, { h with roster, buckets := h.buckets.set index b })

/-- Queue a message for a room in a bucket. -/
def broadcast (h : Hub) (index : Nat) (room : RoomId) (msg : Msg) : Delivery × Hub :=
  match h.buckets[index]? with
  | none => (.dropped, h)
  | some b =>
    let (worker, b) := b.broadcast room msg
    let h := { h with buckets := h.buckets.set index b }
    match worker with
    | none => (.dropped, h)
    | some worker =>
      let w := ⟨index, worker⟩
      (.accepted, if w ∈ h.awake then h else { h with awake := h.awake ++ [w] })

/-- Queue a message for a room in every bucket. -/
def broadcastAll (h : Hub) (room : RoomId) (msg : Msg) : Hub :=
  (List.range h.buckets.length).foldl (fun h index => (h.broadcast index room msg).2) h

/-- Let a worker empty its queue. -/
def runWorker (h : Hub) (w : WorkerRef) : Hub :=
  match h.buckets[w.bucket]? with
  | none => h
  | some b =>
    let (b, roster) := b.runWorker h.roster w.worker
    { h with roster, buckets := h.buckets.set w.bucket b }

/-- Let the workers empty their queues. -/
def run (h : Hub) : Hub :=
  { h.awake.foldl runWorker h with awake := [] }

/-- Offer a message to the channel that a bucket has registered for a user. -/
def pushUser (h : Hub) (index : Nat) (user : UserId) (msg : Msg) : Option (Delivery × Hub) :=
  ((h.buckets[index]?).bind fun b => b.lookupUser user).map fun c =>
    let (delivery, roster) := h.roster.push c msg
    (delivery, { h with roster })

/-- The sum of a count over all buckets. -/
def total (h : Hub) (count : Bucket → Nat) : Nat :=
  h.buckets.foldr (fun b n => count b + n) 0

/-- The registered users of all buckets. -/
def channelCount (h : Hub) : Nat :=
  h.total Bucket.channelCount

/-- The registered rooms of all buckets. -/
def roomCount (h : Hub) : Nat :=
  h.total Bucket.roomCount

end Hub

end ChatRelay
