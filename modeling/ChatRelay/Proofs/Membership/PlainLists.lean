import ChatRelay.Proofs.History
import ChatRelay.Proofs.Membership.Links

/-!
# Rooms as plain lists

Whatever channels are put into rooms and taken out of them, a room is a list: taking a channel in
puts it in front, and taking it out deletes one entry. Nothing keeps a channel from being put into
a room that it is in already, or into a second room; it is then listed twice, and its link names
the seat that it got last. Only that seat can be given up. It is the channel's seat nearest to the
head of its room (`Aligned`), so that the entry deleted is the first one that names the channel.

`Room.Tidy` says what the slots look like to somebody who follows them: forwards from the head they
lead along all occupied slots and no other, backwards they lead the same way back, and the vacant
ones are those on the free list.
-/

namespace ChatRelay

namespace Room

variable {nodes : List (Option Node)} {r : Room} {seats : List Seat} {j k : Nat}

/-! ## Following the slots -/

/-- The slots that are met from a slot on, each one named by the one in front of it, to the end. -/
def Route (nodes : List (Option Node)) : Option Nat → List Nat → Prop
  | cursor, [] => cursor = none
  | cursor, slot :: rest =>
    cursor = some slot ∧ ∃ node, node? nodes slot = some node ∧ Route nodes node.next rest

/-- The slot behind an occupied slot. -/
def next? (nodes : List (Option Node)) (slot : Nat) : Option Nat :=
  (node? nodes slot).bind Node.next

/-- The slot in front of an occupied slot. -/
def prev? (nodes : List (Option Node)) (slot : Nat) : Option Nat :=
  (node? nodes slot).bind Node.prev

/-- The slots of a room are in order. -/
structure Tidy (r : Room) : Prop where
  /-- From the head one meets the occupied slots, each once, and so the members. -/
  route : ∃ slots, Route r.nodes r.head slots ∧ slots.Nodup ∧
    (∀ k, k ∈ slots ↔ (node? r.nodes k).isSome = true) ∧
    slots.map (fun k => (node? r.nodes k).map Node.channel) = r.members.map some
  next_iff : ∀ j k, next? r.nodes j = some k ↔ prev? r.nodes k = some j
  free_nodup : r.free.Nodup
  mem_free : ∀ k, k ∈ r.free ↔ k < r.nodes.length ∧ node? r.nodes k = none
  online : r.online = r.members.length

theorem Threaded.route {before : Option Nat} (h : Threaded nodes before seats none) :
    Route nodes (seats.head?.map Seat.slot) (seats.map Seat.slot) := by
  induction seats generalizing before with
  | nil => rfl
  | cons s rest ih =>
    have hrest := ih h.2
    refine ⟨rfl, _, h.1, ?_⟩
    rw [Option.or_none]
    exact hrest

/-- The node of a seat in the middle of a thread names the seats on both sides. -/
theorem Threaded.node?_middle {front back : List Seat} {s : Seat}
    (h : Threaded nodes none (front ++ s :: back) none) :
    node? nodes s.slot =
      some ⟨s.channel, front.getLast?.map Seat.slot, back.head?.map Seat.slot⟩ := by
  obtain ⟨-, hs, -⟩ := threaded_append.mp h
  rw [Option.or_none, Option.or_none] at hs
  exact hs

namespace HasSeats

/-- An occupied slot stands somewhere in the list of seats. -/
theorem exists_split (h : r.HasSeats seats) {node : Node} (hn : node? r.nodes k = some node) :
    ∃ front s back, seats = front ++ s :: back ∧ s.slot = k := by
  obtain ⟨s, hs, hk⟩ := List.mem_map.mp (h.occupied k node hn)
  obtain ⟨front, back, rfl⟩ := List.append_of_mem hs
  exact ⟨front, s, back, rfl, hk⟩

/-- A slot lies behind another one if their seats are neighbours. -/
theorem next?_eq_some_iff (h : r.HasSeats seats) : next? r.nodes j = some k ↔
    ∃ front s t back, seats = front ++ s :: t :: back ∧ s.slot = j ∧ t.slot = k := by
  constructor
  · intro hk
    obtain ⟨node, hn, hnext⟩ := Option.bind_eq_some_iff.mp hk
    obtain ⟨front, s, back, rfl, rfl⟩ := h.exists_split hn
    rw [h.threaded.node?_middle] at hn
    obtain rfl := Option.some.inj hn
    obtain ⟨t, ht, rfl⟩ := Option.map_eq_some_iff.mp hnext
    obtain ⟨back, rfl⟩ := List.head?_eq_some_iff.mp ht
    exact ⟨front, s, t, back, rfl, rfl, rfl⟩
  · rintro ⟨front, s, t, back, rfl, rfl, rfl⟩
    rw [next?, h.threaded.node?_middle]
    rfl

/-- A slot lies in front of another one if their seats are neighbours. -/
theorem prev?_eq_some_iff (h : r.HasSeats seats) : prev? r.nodes k = some j ↔
    ∃ front s t back, seats = front ++ s :: t :: back ∧ s.slot = j ∧ t.slot = k := by
  constructor
  · intro hj
    obtain ⟨node, hn, hprev⟩ := Option.bind_eq_some_iff.mp hj
    obtain ⟨front, t, back, rfl, rfl⟩ := h.exists_split hn
    rw [h.threaded.node?_middle] at hn
    obtain rfl := Option.some.inj hn
    obtain ⟨s, hs, rfl⟩ := Option.map_eq_some_iff.mp hprev
    obtain ⟨front, rfl⟩ := List.getLast?_eq_some_iff.mp hs
    exact ⟨front, s, t, back, by simp, rfl, rfl⟩
  · rintro ⟨front, s, t, back, rfl, rfl, rfl⟩
    have hsplit : front ++ s :: t :: back = (front ++ [s]) ++ t :: back := by simp
    have hthread := h.threaded
    rw [hsplit] at hthread
    rw [prev?, hthread.node?_middle]
    simp

/-- The slots of seats are those that are occupied. -/
theorem mem_slots_iff (h : r.HasSeats seats) :
    k ∈ seats.map Seat.slot ↔ (node? r.nodes k).isSome = true := by
  rw [Option.isSome_iff_exists]
  constructor
  · intro hk
    obtain ⟨s, hs, rfl⟩ := List.mem_map.mp hk
    obtain ⟨node, hn, -⟩ := h.threaded.node?_of_mem hs
    exact ⟨node, hn⟩
  · rintro ⟨node, hn⟩
    exact h.occupied k node hn

theorem tidy (h : r.HasSeats seats) : r.Tidy where
  route := by
    refine ⟨seats.map Seat.slot, ?_, h.nodup, fun k => h.mem_slots_iff, ?_⟩
    · rw [h.head]
      exact h.threaded.route
    · rw [h.members_eq, List.map_map, List.map_map]
      refine List.map_congr_left fun s hs => ?_
      obtain ⟨node, hn, hc⟩ := h.threaded.node?_of_mem hs
      simp only [Function.comp_apply, hn, Option.map_some, hc]
  next_iff j k := by rw [h.next?_eq_some_iff, h.prev?_eq_some_iff]
  free_nodup := h.free_nodup
  mem_free := h.mem_free
  online := by rw [h.online, h.members_eq, List.length_map]

end HasSeats

end Room

namespace Roster

variable {s s' s₀ : Roster} {c c' : ChannelRef} {r r' : RoomRef} {room room' : Room}
  {channel : Channel} {slot : Nat}

/-! ## The seat that a link names -/

/-- Slots stand for seats, and a link to a seat in a room names the first seat of its channel
there. -/
def Aligned (s : Roster) : Prop :=
  ∀ r room, s.room? r = some room → ∃ seats, room.HasSeats seats ∧
    ∀ c slot, s.link? c = some ⟨r, slot⟩ →
      seats.find? (fun seat => seat.channel = c) = some ⟨slot, c⟩

theorem members_of_room? (h : s.room? r = some room) : s.members r = room.members := by
  rw [members, h, Option.elim_some]

theorem members_relinked (h : s.room? r = some room) (room' : Room) (c : ChannelRef)
    (link : Option Link) (r' : RoomRef) :
    (s.relinked r room' c link).members r' = if r' = r then room'.members else s.members r' := by
  simp only [members, room?_relinked h]
  split
  next => rfl
  next => rfl

/-- The rooms are as before, but for one whose seats are as its links want them. -/
theorem Aligned.relinked (h : s.Aligned) (hroom : s.room? r = some room)
    (hc : s.channel? c = some channel) {link : Option Link} {seats : List Room.Seat}
    (hs : room'.HasSeats seats) (hnew : ∀ l, link = some l → l.room = r)
    (hfind : ∀ c' slot, (if c' = c then link else s.link? c') = some ⟨r, slot⟩ →
      seats.find? (fun seat => seat.channel = c') = some ⟨slot, c'⟩) :
    (s.relinked r room' c link).Aligned := by
  have hlinks := link?_relinked hc r room' link
  intro r' room'' hr'
  rw [room?_relinked hroom] at hr'
  split at hr'
  next he =>
    subst he
    obtain rfl := Option.some.inj hr'
    refine ⟨seats, hs, fun c' slot hl => hfind c' slot ?_⟩
    rw [← hlinks, hl]
  next hne =>
    obtain ⟨seats', hs', hmem⟩ := h r' room'' hr'
    refine ⟨seats', hs', fun c' slot hl => hmem c' slot ?_⟩
    rw [hlinks] at hl
    split at hl
    next => exact absurd (hnew _ hl) hne
    next => exact hl

/-- A room that is not retired takes in every channel, a member or not. -/
theorem Aligned.put (h : s.Aligned) (hroom : s.room? r = some room)
    (hc : s.channel? c = some channel) (hd : room.isDropped = false) :
    ∃ slot room', s.put r c = .ok (s.relinked r room' c (some ⟨r, slot⟩)) ∧
      (s.relinked r room' c (some ⟨r, slot⟩)).Aligned ∧ room'.id = room.id ∧
      room'.isDropped = false ∧ room'.members = c :: room.members := by
  obtain ⟨seats, hs, hfind⟩ := h r room hroom
  obtain ⟨slot, room', hput, hs', hid, hd'⟩ := hs.put hd c
  refine ⟨slot, room', ?_, h.relinked hroom hc hs' ?_ ?_, hid, hd', ?_⟩
  · simp only [Roster.put, hroom, hput, Roster.relinked]
  · rintro _ ⟨⟩
    rfl
  · intro c' slot' hl
    rw [List.find?_cons]
    by_cases hcc : c = c'
    · subst hcc
      rw [if_pos rfl] at hl
      obtain rfl : slot = slot' := congrArg Link.slot (Option.some.inj hl)
      simp
    · rw [if_neg (Ne.symm hcc)] at hl
      simp only [decide_eq_false hcc]
      exact hfind c' slot' hl
  · rw [hs'.members_eq, hs.members_eq, List.map_cons]

/-- A channel whose link names a room gives up its first seat there. -/
theorem Aligned.remove (h : s.Aligned) (hroom : s.room? r = some room)
    (hlink : s.link? c = some ⟨r, slot⟩) :
    ∃ room', s.remove r c = (room'.isDropped, s.relinked r room' c none) ∧
      (s.relinked r room' c none).Aligned ∧ room'.id = room.id ∧
      (room'.isDropped = true ↔ room'.members = []) ∧ c ∈ room.members ∧
      room'.members = room.members.erase c := by
  obtain ⟨channel, hc, hcl⟩ := Option.bind_eq_some_iff.mp hlink
  obtain ⟨seats, hs, hfind⟩ := h r room hroom
  obtain ⟨-, front, back, rfl, hfront⟩ := List.find?_eq_some_iff_append.mp (hfind c slot hlink)
  obtain ⟨room', hunlink, hs', hid, hd⟩ := hs.unlink?
  have hfresh : c ∉ front.map Room.Seat.channel := by
    intro hc'
    obtain ⟨seat, hseat, he⟩ := List.mem_map.mp hc'
    simpa [he] using hfront seat hseat
  refine ⟨room', ?_, h.relinked hroom hc hs' (fun l hl => nomatch hl) ?_, hid, ?_, ?_, ?_⟩
  · have hleft : s.unlink? r room c = some room' := by
      simp only [Roster.unlink?, hc, Option.bind_some, hcl, if_true, hunlink]
    simp only [Roster.remove, hroom, hleft, Roster.relinked]
  · intro c' slot' hl
    by_cases hcc : c' = c
    · rw [if_pos hcc] at hl
      cases hl
    · rw [if_neg hcc] at hl
      rw [← hfind c' slot' hl, List.find?_append, List.find?_append, List.find?_cons]
      simp only [decide_eq_false (Ne.symm hcc)]
  · rw [hd, hs'.members_eq, List.map_eq_nil_iff]
  · rw [hs.members_eq, List.map_append, List.map_cons]
    exact List.mem_append_right _ List.mem_cons_self
  · rw [hs'.members_eq, hs.members_eq, List.map_append, List.map_append, List.map_cons,
      List.erase_append_right _ hfresh, List.erase_cons_head]

/-! ## One call -/

/-- What rooms are called for. -/
inductive Op where
  | put (r : RoomRef) (c : ChannelRef)
  | remove (r : RoomRef) (c : ChannelRef)
  deriving DecidableEq

/-- Carry out a call, and tell why it was refused, if it was. -/
def act (s : Roster) : Op → Option RoomError × Roster
  | .put r c =>
    match s.put r c with
    | .error e => (some e, s)
    | .ok s => (none, s)
  | .remove r c => (none, (s.remove r c).2)

/-- A call names a room and a channel that there are. -/
def Op.Fits (s : Roster) : Op → Prop
  | .put r c | .remove r c => (s.room? r).isSome = true ∧ (s.channel? c).isSome = true

/-- Everything that a call can lead to. -/
inductive Turn (s : Roster) : Op → Option RoomError → Roster → Prop
  /-- The room is retired. -/
  | refused {r : RoomRef} {c : ChannelRef} {room : Room} : s.room? r = some room →
    room.isDropped = true → Turn s (.put r c) (some (.dropped room.id)) s
  | entered {r : RoomRef} {c : ChannelRef} {room room' : Room} {channel : Channel} {slot : Nat} :
    s.room? r = some room → s.channel? c = some channel → room.isDropped = false →
    room'.id = room.id → room'.isDropped = false → room'.members = c :: room.members →
    Turn s (.put r c) none (s.relinked r room' c (some ⟨r, slot⟩))
  | left {r : RoomRef} {c : ChannelRef} {room room' : Room} {slot : Nat} :
    s.room? r = some room → s.link? c = some ⟨r, slot⟩ → room'.id = room.id →
    (room'.isDropped = true ↔ room'.members = []) → c ∈ room.members →
    room'.members = room.members.erase c →
    Turn s (.remove r c) none (s.relinked r room' c none)
  /-- The channel's link names another room, or none. -/
  | stayed {r : RoomRef} {c : ChannelRef} : (s.link? c).map Link.room ≠ some r →
    Turn s (.remove r c) none s

/-- A call on aligned rooms leads to one of these, and leaves them aligned. -/
theorem Aligned.turn (h : s.Aligned) {op : Op} (hop : op.Fits s) :
    s.Turn op (s.act op).1 (s.act op).2 ∧ (s.act op).2.Aligned := by
  cases op with
  | put r c =>
    obtain ⟨hr, hc⟩ := hop
    obtain ⟨room, hroom⟩ := Option.isSome_iff_exists.mp hr
    obtain ⟨channel, hchannel⟩ := Option.isSome_iff_exists.mp hc
    cases hd : room.isDropped with
    | true =>
      simp only [act, put_of_dropped hroom hd]
      exact ⟨.refused hroom hd, h⟩
    | false =>
      obtain ⟨slot, room', hput, haligned, hid, hd', hmem⟩ := h.put hroom hchannel hd
      simp only [act, hput]
      exact ⟨.entered hroom hchannel hd hid hd' hmem, haligned⟩
  | remove r c =>
    obtain ⟨room, hroom⟩ := Option.isSome_iff_exists.mp hop.1
    by_cases hl : (s.link? c).map Link.room = some r
    · obtain ⟨⟨r', slot⟩, hlink, rfl⟩ := Option.map_eq_some_iff.mp hl
      obtain ⟨room', hremove, haligned, hid, hd, hmem, hmembers⟩ := h.remove hroom hlink
      simp only [act, hremove]
      exact ⟨.left hroom hlink hid hd hmem hmembers, haligned⟩
    · simp only [act, remove_of_elsewhere hl]
      exact ⟨.stayed hl, h⟩

theorem isSome_room?_relinked (h : s.room? r = some room) (room' : Room) (c : ChannelRef)
    (link : Option Link) (r' : RoomRef) :
    ((s.relinked r room' c link).room? r').isSome = (s.room? r').isSome := by
  rw [room?_relinked h]
  split
  next he => rw [he, h, Option.isSome_some, Option.isSome_some]
  next => rfl

theorem isSome_channel?_relinked (s : Roster) (r : RoomRef) (room : Room) (c : ChannelRef)
    (link : Option Link) (c' : ChannelRef) :
    ((s.relinked r room c link).channel? c').isSome = (s.channel? c').isSome := by
  rw [channel?_relinked]
  split
  next he => rw [he, Option.isSome_map]
  next => rfl

namespace Turn

variable {op : Op} {answer : Option RoomError}

/-- There are the same rooms and channels as before. -/
theorem fits (ht : s.Turn op answer s') (op' : Op) : op'.Fits s' ↔ op'.Fits s := by
  cases ht with
  | refused | stayed => exact Iff.rfl
  | entered hroom => cases op' <;>
      simp only [Op.Fits, isSome_room?_relinked hroom, isSome_channel?_relinked]
  | left hroom => cases op' <;>
      simp only [Op.Fits, isSome_room?_relinked hroom, isSome_channel?_relinked]

/-- A put is refused by a retired room only. -/
theorem answer_put {answer : Option RoomError} (ht : s.Turn (.put r c) answer s')
    (hr : s.room? r = some room) :
    answer = if room.isDropped = true then some (.dropped room.id) else none := by
  cases ht with
  | refused hroom hd =>
    rw [hr] at hroom
    obtain rfl := Option.some.inj hroom
    rw [if_pos hd]
  | entered hroom _ hd =>
    rw [hr] at hroom
    obtain rfl := Option.some.inj hroom
    rw [hd, if_neg Bool.false_ne_true]

/-- A put puts the channel in front of the members of its room, unless it is refused. -/
theorem members_put {answer : Option RoomError} (ht : s.Turn (.put r c) answer s')
    (r' : RoomRef) : s'.members r' =
      if r' = r ∧ answer = none then c :: s.members r else s.members r' := by
  cases ht with
  | refused => simp
  | entered hroom _ _ _ _ hmem =>
    rw [members_relinked hroom, hmem, members_of_room? hroom]
    simp

/-- A removal deletes the first entry of the channel if the channel's link names the room. -/
theorem members_remove {answer : Option RoomError} (ht : s.Turn (.remove r c) answer s')
    (r' : RoomRef) : s'.members r' =
      if r' = r ∧ (s.link? c).map Link.room = some r then (s.members r).erase c
      else s.members r' := by
  cases ht with
  | left hroom hlink _ _ _ hmem =>
    rw [members_relinked hroom, hmem, members_of_room? hroom, hlink]
    simp
  | stayed hne => simp [hne]

/-- The entry that a removal deletes is there. -/
theorem members_remove_ne_iff {answer : Option RoomError} (ht : s.Turn (.remove r c) answer s') :
    s'.members r ≠ s.members r ↔ (s.link? c).map Link.room = some r := by
  rw [ht.members_remove]
  cases ht with
  | left hroom hlink _ _ hmem =>
    rw [members_of_room? hroom, hlink]
    simpa using hmem
  | stayed hne => simp [hne]

end Turn

/-! ## A run of calls -/

/-- The room that a channel's link names after one more answered call. -/
def nextRoom? (c : ChannelRef) (place : Option RoomRef) : Op × Option RoomError → Option RoomRef
  | (.put r c', none) => if c' = c then some r else place
  | (.put _ _, some _) => place
  | (.remove r c', _) => if c' = c ∧ place = some r then none else place

/-- By a history, the room of the latest put of a channel that succeeded, unless a removal from
this room came later. -/
def lastRoom? (c : ChannelRef) (history : List (Op × Option RoomError)) : Option RoomRef :=
  history.foldl (nextRoom? c) none

theorem lastRoom?_concat (c : ChannelRef) (history : List (Op × Option RoomError))
    (entry : Op × Option RoomError) :
    lastRoom? c (history ++ [entry]) = nextRoom? c (lastRoom? c history) entry :=
  List.foldl_concat ..

/-- A call moves the links as its answer tells. -/
theorem Turn.link?_room {op : Op} {answer : Option RoomError} (ht : s.Turn op answer s')
    (c : ChannelRef) : (s'.link? c).map Link.room =
      nextRoom? c ((s.link? c).map Link.room) (op, answer) := by
  cases ht with
  | refused => rfl
  | @entered r c' room room' channel slot hroom hc =>
    rw [link?_relinked hc]
    by_cases he : c = c'
    · simp [nextRoom?, he]
    · simp [nextRoom?, he, Ne.symm he]
  | @left r c' room room' slot hroom hlink =>
    obtain ⟨channel, hc, -⟩ := Option.bind_eq_some_iff.mp hlink
    rw [link?_relinked hc]
    by_cases he : c = c'
    · simp [nextRoom?, he, hlink]
    · simp [nextRoom?, he, Ne.symm he]
  | @stayed r c' hne =>
    by_cases he : c' = c
    · subst he
      simp [nextRoom?, hne]
    · simp [nextRoom?, he]

/-- A roster of rooms that nobody has been in. -/
structure Unused (s : Roster) : Prop where
  rooms : ∀ r room, s.room? r = some room → room = .new room.id
  links : ∀ c, s.link? c = none

theorem unused_of_forall {channels : List Channel} {rooms : List (Option Room)}
    (hrooms : ∀ room ∈ rooms, room = room.map fun r => .new r.id)
    (hlinks : ∀ channel ∈ channels, channel.link = none) : Unused ⟨channels, rooms⟩ where
  rooms r room hr := by
    have hmem : some room ∈ rooms := List.mem_of_getElem? (Option.join_eq_some_iff.mp hr)
    exact Option.some.inj (hrooms (some room) hmem)
  links c := by
    rw [link?, Option.bind_eq_none_iff]
    intro channel hc
    exact hlinks channel (List.mem_of_getElem? hc)

theorem Unused.aligned (h : s.Unused) : s.Aligned := by
  intro r room hroom
  rw [h.rooms r room hroom]
  refine ⟨[], Room.HasSeats.new room.id, fun c slot hl => ?_⟩
  rw [h.links] at hl
  cases hl

/-- What holds after a run: rooms are aligned, there are the same ones as before, and links name
the rooms that the history tells. -/
structure Told (s₀ : Roster) (history : List (Op × Option RoomError)) (s : Roster) : Prop where
  aligned : s.Aligned
  fits : ∀ op : Op, op.Fits s ↔ op.Fits s₀
  link?_room : ∀ c, (s.link? c).map Link.room = lastRoom? c history

theorem Told.act {history : List (Op × Option RoomError)} (h : Told s₀ history s) {op : Op}
    (hop : op.Fits s₀) : Told s₀ (history ++ [(op, (s.act op).1)]) (s.act op).2 := by
  obtain ⟨hturn, haligned⟩ := h.aligned.turn ((h.fits op).mpr hop)
  refine ⟨haligned, fun op' => (hturn.fits op').trans (h.fits op'), fun c => ?_⟩
  rw [hturn.link?_room, h.link?_room, lastRoom?_concat]

theorem Unused.told (hs : s₀.Unused) : Told s₀ [] s₀ where
  aligned := hs.aligned
  fits _ := Iff.rfl
  link?_room c := by
    rw [hs.links]
    rfl

theorem told_reached (hs : s₀.Unused) {ops : List Op} (hops : ∀ op ∈ ops, op.Fits s₀) :
    Told s₀ (History.answered act s₀ ops) (History.reached act s₀ ops) := by
  refine History.induct act s₀ (P := Told s₀) ops hs.told ?_
  intro history s op hop h
  exact h.act (hops op hop)

/-- Whatever channels have been put into rooms and taken out of them: every room is in order and
counts its members; a put puts the channel in front of the members, unless the room is retired and
refuses it; a removal deletes the first entry of the channel if the channel's link names this room,
which it does after the channel's latest successful put was into it and nobody took it out there
since; nothing else changes the members of any room. -/
theorem rooms_refine_lists (hs : s₀.Unused) (ops : List Op) (hops : ∀ op ∈ ops, op.Fits s₀) :
    let history := History.answered act s₀ ops
    let s := History.reached act s₀ ops
    (∀ r room, s.room? r = some room → room.Tidy) ∧
      (∀ c, (s.link? c).map Link.room = lastRoom? c history) ∧
      (∀ r c, (Op.put r c).Fits s₀ →
        (∀ room, s.room? r = some room → (s.act (.put r c)).1 =
          if room.isDropped = true then some (.dropped room.id) else none) ∧
        ∀ r', (s.act (.put r c)).2.members r' =
          if r' = r ∧ (s.act (.put r c)).1 = none then c :: s.members r else s.members r') ∧
      ∀ r c, (Op.remove r c).Fits s₀ →
        ((s.act (.remove r c)).2.members r ≠ s.members r ↔ lastRoom? c history = some r) ∧
        ∀ r', (s.act (.remove r c)).2.members r' =
          if r' = r ∧ lastRoom? c history = some r then (s.members r).erase c
          else s.members r' := by
  intro history s
  obtain ⟨haligned, hfits, hlink⟩ : Told s₀ history s := told_reached hs hops
  refine ⟨?_, hlink, ?_, ?_⟩
  · intro r room hroom
    obtain ⟨seats, hseats, -⟩ := haligned r room hroom
    exact hseats.tidy
  · intro r c hop
    obtain ⟨hturn, -⟩ := haligned.turn ((hfits _).mpr hop)
    exact ⟨fun room hroom => hturn.answer_put hroom, hturn.members_put⟩
  · intro r c hop
    obtain ⟨hturn, -⟩ := haligned.turn ((hfits _).mpr hop)
    rw [← hlink]
    exact ⟨hturn.members_remove_ne_iff, hturn.members_remove⟩

/-- Of two channels, the first is put into a room twice with the second in between, and the second
then goes to another room. The first room lists three entries. Taking the second channel out there
changes nothing, since its link names the other room; taking the first one out deletes the entry in
front of the list and keeps the one behind. -/
theorem rooms_refine_lists_twice :
    let s₀ : Roster := ⟨[.new 1 8, .new 2 8], [some (.new ⟨7⟩), some (.new ⟨8⟩)]⟩
    let ops : List Op := [.put ⟨0⟩ ⟨0⟩, .put ⟨0⟩ ⟨1⟩, .put ⟨0⟩ ⟨0⟩, .put ⟨1⟩ ⟨1⟩]
    let s := History.reached act s₀ ops
    s₀.Unused ∧ (∀ op ∈ ops, op.Fits s₀) ∧ s.members ⟨0⟩ = [⟨0⟩, ⟨1⟩, ⟨0⟩] ∧
      (s.act (.remove ⟨0⟩ ⟨1⟩)).2.members ⟨0⟩ = [⟨0⟩, ⟨1⟩, ⟨0⟩] ∧
      (s.act (.remove ⟨0⟩ ⟨0⟩)).2.members ⟨0⟩ = [⟨1⟩, ⟨0⟩] := by
  intro s₀ ops s
  have hs : s₀.Unused := unused_of_forall (by decide) (by decide)
  have hops : ∀ op ∈ ops, op.Fits s₀ := by
    simp [ops, s₀, Op.Fits, room?, channel?]
  have hmembers : s.members ⟨0⟩ = [⟨0⟩, ⟨1⟩, ⟨0⟩] := by decide +kernel
  obtain ⟨-, -, -, hremove⟩ := rooms_refine_lists hs ops hops
  have hsecond := (hremove ⟨0⟩ ⟨1⟩ (by simp [s₀, Op.Fits, room?, channel?])).2 ⟨0⟩
  have hfirst := (hremove ⟨0⟩ ⟨0⟩ (by simp [s₀, Op.Fits, room?, channel?])).2 ⟨0⟩
  refine ⟨hs, hops, hmembers, hsecond.trans ?_, hfirst.trans ?_⟩
  · rw [if_neg (by decide +kernel)]
    exact hmembers
  · rw [if_pos (by decide +kernel)]
    exact congrArg (List.erase · _) hmembers

end Roster

end ChatRelay
