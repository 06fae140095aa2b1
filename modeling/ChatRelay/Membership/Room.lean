import ChatRelay.Membership.Channel

/-!
# Rooms

A room lists its members, latest first. The list is threaded through slots: each occupied slot
names a member and the slots of its neighbours, so that a member that knows its slot can be taken
out without a search, and a vacant slot is used again before a new one is added. `members` is the
list that the slots stand for. A room that loses its last member is retired and takes nobody in
again.
-/

namespace ChatRelay

/-- Why a room takes nobody in. -/
inductive RoomError where
  /-- The room was retired. -/
  | dropped (room : RoomId)
  deriving DecidableEq, Repr

def RoomError.message : RoomError → String
  | dropped room => "Room " ++ room.toText ++ " has been dropped"

/-- An occupied slot. -/
structure Node where
  channel : ChannelRef
  prev : Option Nat
  next : Option Nat
  deriving DecidableEq, Repr

/-- The members of one room. -/
structure Room where
  id : RoomId
  nodes : List (Option Node)
  /-- The vacant slots, the one to use next in front. -/
  free : List Nat
  head : Option Nat
  online : Nat
  isDropped : Bool
  deriving DecidableEq, Repr

namespace Room

/-- A room without members that has never had one. -/
def new (id : RoomId) : Room :=
  ⟨id, [], [], none, 0, false⟩

/-- The occupied slot of a number. -/
def node? (nodes : List (Option Node)) (slot : Nat) : Option Node :=
  nodes[slot]?.join

/-- Change an occupied slot, if there is one of that number. -/
def modifyNode (nodes : List (Option Node)) (slot : Option Nat) (f : Node → Node) :
    List (Option Node) :=
  match slot with
  | some slot => nodes.modify slot (Option.map f)
  | none => nodes

/-- The channels that are met from a slot on, in at most so many steps. -/
def walk (nodes : List (Option Node)) : Nat → Option Nat → List ChannelRef
  | 0, _ => []
  | _ + 1, none => []
  | steps + 1, some slot =>
    match node? nodes slot with
    | some node => node.channel :: walk nodes steps node.next
    | none => []

/-- The members, latest first. -/
def members (r : Room) : List ChannelRef :=
  walk r.nodes r.nodes.length r.head

/-- Put a node into the first vacant slot, or into a new one. -/
def alloc (r : Room) (node : Node) : Nat × Room :=
  match r.free with
  | slot :: free => (slot, { r with nodes := r.nodes.set slot (some node), free })
  | [] => (r.nodes.length, { r with nodes := r.nodes ++ [some node] })

/-- Take a channel in as the first member, and tell its slot. Nothing keeps a channel from being
taken in twice. -/
def put (r : Room) (c : ChannelRef) : Except RoomError (Nat × Room) :=
  if r.isDropped then .error (.dropped r.id)
  else
    let (slot, r') := r.alloc ⟨c, none, r.head⟩
    .ok (slot, { r' with
      nodes := modifyNode r'.nodes r.head fun node => { node with prev := some slot }
      head := some slot
      online := r.online + 1 })

/-- Vacate a slot that holds `c`. -/
def unlink? (r : Room) (slot : Nat) (c : ChannelRef) : Option Room :=
  match node? r.nodes slot with
  | none => none
  | some node =>
    if node.channel = c then
      let nodes := r.nodes.set slot none
      let nodes := modifyNode nodes node.prev fun n => { n with next := node.next }
      some { r with
        nodes := modifyNode nodes node.next fun n => { n with prev := node.prev }
        free := slot :: r.free
        head := if node.prev.isSome then r.head else node.next
        online := r.online - 1
        isDropped := r.isDropped || r.online == 1 }
    else none

def describe (r : Room) : String :=
  "Room \x7b id: RoomId(" ++ r.id.toText ++ "), online_count: " ++ toString r.online ++
    ", dropped: " ++ toString r.isDropped ++ " \x7d"

end Room

end ChatRelay
