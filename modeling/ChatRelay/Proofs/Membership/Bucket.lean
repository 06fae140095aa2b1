import ChatRelay.Membership.Bucket
import ChatRelay.Proofs.Membership.Links

/-!
# Entering and leaving a room of a bucket

`Admitted` and `Left` say what a bucket and the roster look like after a channel has been taken into
a room and after it has been taken out again, in terms of look-ups: which room an identifier leads
to, who its members are, and that nothing else has changed. Whether the room had to be opened, and
whether it is let go with its last member, shows in these look-ups only. `Entered` is what
`Admitted` comes to where no retired room is registered.
-/

namespace ChatRelay.Bucket

variable {b b' : Bucket} {s s' : Roster} {id : RoomId} {c : ChannelRef} {r : RoomRef}

/-- The members of the room that is registered under an identifier, latest first. -/
def membersOf (b : Bucket) (s : Roster) (id : RoomId) : List ChannelRef :=
  (b.lookupRoom id).elim [] s.members

/-- What holds after `c`, which had no link, was taken into the room of an identifier: it is the
first member. The room is the one that was registered before, or a fresh one where none was
registered or a retired one; then the retired one is let go. All other rooms and channels are as
they were. -/
structure Admitted (b : Bucket) (s : Roster) (id : RoomId) (c : ChannelRef) (r : RoomRef)
    (b' : Bucket) (s' : Roster) : Prop where
  linked : s'.Linked
  bucket : b' = { b with rooms := b'.rooms }
  lookupRoom : ∀ id', b'.lookupRoom id' = if id' = id then some r else b.lookupRoom id'
  known_or_fresh : b.lookupRoom id = some r ∧ s'.rooms.length = s.rooms.length ∨
    r.index = s.rooms.length ∧ s'.rooms.length = s.rooms.length + 1 ∧
      ∀ r' room, b.lookupRoom id = some r' → s.room? r' = some room → room.isDropped = true
  room : ∃ room, s'.room? r = some room ∧ room.id = id ∧ room.isDropped = false ∧
    room.members = c :: b.membersOf s id
  room?_ne : ∀ r', r' ≠ r → s'.room? r' = if b.lookupRoom id = some r' then none else s.room? r'
  channels : ∃ slot, ∀ c', s'.channel? c' =
    if c' = c then (s.channel? c).map fun ch => { ch with link := some ⟨r, slot⟩ }
    else s.channel? c'

/-- What holds after `c`, which had no link, was taken into the room of an identifier: it is the
first member, the room is the one that was registered before or a fresh one, and all other rooms
and channels are as they were. -/
structure Entered (b : Bucket) (s : Roster) (id : RoomId) (c : ChannelRef) (r : RoomRef)
    (b' : Bucket) (s' : Roster) : Prop where
  linked : s'.Linked
  bucket : b' = { b with rooms := b'.rooms }
  lookupRoom : ∀ id', b'.lookupRoom id' = if id' = id then some r else b.lookupRoom id'
  known_or_fresh : b.lookupRoom id = some r ∨ b.lookupRoom id = none ∧ s.room? r = none
  room : ∃ room, s'.room? r = some room ∧ room.id = id ∧ room.isDropped = false ∧
    room.members = c :: b.membersOf s id
  room?_ne : ∀ r', r' ≠ r → s'.room? r' = s.room? r'
  channels : ∃ slot, ∀ c', s'.channel? c' =
    if c' = c then (s.channel? c).map fun ch => { ch with link := some ⟨r, slot⟩ }
    else s.channel? c'

/-- A fresh room takes the channel in; a retired one that was registered is let go. -/
theorem openRoom_admitted (h : s.Linked) {channel : Channel} (hc : s.channel? c = some channel)
    (hlink : channel.link = none) (hold : ∀ r, b.lookupRoom id = some r →
      ∃ room, s.room? r = some room ∧ room.isDropped = true) :
    ∃ r b' s', b.openRoom s id c = .ok (b', s') ∧ b.Admitted s id c r b' s' := by
  have hroom : (s.addRoom (.new id)).2.room? (s.addRoom (.new id)).1 = some (.new id) := by
    rw [Roster.room?_addRoom, if_pos rfl]
  have hc' : (s.addRoom (.new id)).2.channel? c = some channel := by
    rw [Roster.channel?_addRoom, hc]
  obtain ⟨slot, room', hput, hlinked, hid', hd', hmem⟩ := (h.addRoom id).put hroom rfl hc' hlink
  have hrooms := Roster.room?_relinked hroom room' c (some ⟨(s.addRoom (.new id)).1, slot⟩)
  have hnew : ∀ r, b.lookupRoom id = some r → r ≠ (s.addRoom (.new id)).1 := by
    rintro r hr rfl
    obtain ⟨room, hroom, -⟩ := hold _ hr
    rw [Roster.room?_addRoom_fst] at hroom
    cases hroom
  have hempty : b.membersOf s id = [] := by
    rw [membersOf]
    cases hr : b.lookupRoom id with
    | none => rfl
    | some r =>
      obtain ⟨room, hroom, hd⟩ := hold r hr
      exact h.members_of_dropped hroom hd
  have hopen : b.openRoom s id c =
      .ok ({ b with rooms := b.rooms.insert id (s.addRoom (.new id)).1 },
        ((s.addRoom (.new id)).2.relinked (s.addRoom (.new id)).1 room' c
          (some ⟨(s.addRoom (.new id)).1, slot⟩)).releaseAny (b.lookupRoom id)) := by
    simp only [openRoom, hput, Except.map, Roster.releaseAny]
  refine ⟨(s.addRoom (.new id)).1, _, _, hopen, ?_, rfl, ?_, .inr ⟨rfl, ?_, ?_⟩, ?_, ?_, slot, ?_⟩
  · cases hr : b.lookupRoom id with
    | none => exact hlinked
    | some r =>
      obtain ⟨room, hroom, hd⟩ := hold r hr
      refine hlinked.release ?_
      rw [Roster.members, hrooms, if_neg (hnew r hr), Roster.room?_addRoom, if_neg (hnew r hr)]
      exact h.members_of_dropped hroom hd
  · intro id'
    exact Table.find?_insert ..
  · rw [Roster.length_rooms_releaseAny, Roster.length_rooms_relinked]
    exact List.length_append
  · intro r' room hr' hroom'
    obtain ⟨room'', hroom'', hd⟩ := hold r' hr'
    rw [hroom'] at hroom''
    rw [Option.some.inj hroom'']
    exact hd
  · refine ⟨room', ?_, hid', hd', ?_⟩
    · rw [Roster.room?_releaseAny, if_neg (fun hr => hnew _ hr rfl), hrooms, if_pos rfl]
    · rw [hmem, hempty]
      rfl
  · intro r' hne
    rw [Roster.room?_releaseAny, hrooms, if_neg hne, Roster.room?_addRoom, if_neg hne]
  · intro c'
    rw [Roster.channel?_releaseAny, Roster.channel?_relinked, Roster.channel?_addRoom,
      Roster.channel?_addRoom]

/-- Whatever is registered under an identifier, the channel is taken in. -/
theorem enterRoom_admitted (h : s.Linked) {channel : Channel} (hc : s.channel? c = some channel)
    (hlink : channel.link = none)
    (hid : ∀ r, b.lookupRoom id = some r → ∃ room, s.room? r = some room ∧ room.id = id) :
    ∃ r b' s', b.enterRoom s id c = .ok (b', s') ∧ b.Admitted s id c r b' s' := by
  unfold enterRoom
  cases hr : b.lookupRoom id with
  | none => exact openRoom_admitted h hc hlink fun r hr' => by simp [hr] at hr'
  | some r =>
    obtain ⟨room, hroom, hrid⟩ := hid r hr
    cases hd : room.isDropped with
    | true =>
      simp only [Roster.put_of_dropped hroom hd]
      refine openRoom_admitted h hc hlink fun r' hr' => ?_
      rw [hr] at hr'
      obtain rfl := Option.some.inj hr'
      exact ⟨room, hroom, hd⟩
    | false =>
      obtain ⟨slot, room', hput, hlinked, hid', hd', hmem⟩ := h.put hroom hd hc hlink
      have hrooms := Roster.room?_relinked hroom room' c (some ⟨r, slot⟩)
      refine ⟨r, b, s.relinked r room' c (some ⟨r, slot⟩), ?_, hlinked, rfl, ?_,
        .inl ⟨hr, ?_⟩, ?_, ?_, slot, s.channel?_relinked r room' c (some ⟨r, slot⟩)⟩
      · simp only [hput]
      · intro id'
        split
        next he => rw [he, hr]
        next => rfl
      · exact Roster.length_rooms_relinked ..
      · refine ⟨room', ?_, hid'.trans hrid, hd', ?_⟩
        · rw [hrooms, if_pos rfl]
        · rw [hmem, membersOf, hr, Option.elim_some, Roster.members, hroom, Option.elim_some]
      · intro r' hne
        rw [hrooms, if_neg hne, if_neg]
        rw [hr]
        exact fun he => hne (Option.some.inj he).symm

/-- A registered room that is not retired, or none: the channel is taken in. -/
theorem enterRoom_entered (h : s.Linked) {channel : Channel} (hc : s.channel? c = some channel)
    (hlink : channel.link = none)
    (hid : ∀ r, b.lookupRoom id = some r →
      ∃ room, s.room? r = some room ∧ room.id = id ∧ room.isDropped = false) :
    ∃ r b' s', b.enterRoom s id c = .ok (b', s') ∧ b.Entered s id c r b' s' := by
  obtain ⟨r, b', s', henter, ha⟩ := enterRoom_admitted h hc hlink fun r hr =>
    let ⟨room, hroom, hrid, _⟩ := hid r hr
    ⟨room, hroom, hrid⟩
  have hfresh : b.lookupRoom id = some r ∨ b.lookupRoom id = none ∧ s.room? r = none := by
    rcases ha.known_or_fresh with ⟨hknown, -⟩ | ⟨hindex, -, hdropped⟩
    · exact .inl hknown
    · right
      constructor
      · cases hr : b.lookupRoom id with
        | none => rfl
        | some r' =>
          obtain ⟨room, hroom, -, hd⟩ := hid r' hr
          have hd' := hdropped r' room hr hroom
          rw [hd] at hd'
          cases hd'
      · exact Roster.room?_eq_none_of_length_le (Nat.le_of_eq hindex.symm)
  refine ⟨r, b', s', henter, ha.linked, ha.bucket, ha.lookupRoom, hfresh, ha.room, ?_, ha.channels⟩
  intro r' hne
  rw [ha.room?_ne r' hne, if_neg]
  intro hr
  rcases hfresh with hknown | ⟨hnone, -⟩
  · rw [hknown] at hr
    exact hne (Option.some.inj hr).symm
  · rw [hnone] at hr
    cases hr

/-- Take a channel out of the user index, unless another one is registered for its user. -/
def unregister (b : Bucket) (user : UserId) (c : ChannelRef) : Bucket :=
  if b.lookupUser user = some c then { b with users := b.users.erase user } else b

theorem lookupUser_unregister (b : Bucket) (user user' : UserId) (c : ChannelRef) :
    (b.unregister user c).lookupUser user' =
      if user' = user ∧ b.lookupUser user = some c then none else b.lookupUser user' := by
  unfold unregister
  by_cases hu : b.lookupUser user = some c
  · simp only [hu, and_true]
    exact Table.find?_erase ..
  · rw [if_neg hu]
    simp [hu]

@[simp] theorem lookupRoom_unregister (b : Bucket) (user : UserId) (c : ChannelRef) (id : RoomId) :
    (b.unregister user c).lookupRoom id = b.lookupRoom id := by
  unfold unregister
  split <;> rfl

@[simp] theorem membersOf_unregister (b : Bucket) (user : UserId) (c : ChannelRef) (s : Roster)
    (id : RoomId) : (b.unregister user c).membersOf s id = b.membersOf s id := by
  rw [membersOf, membersOf, lookupRoom_unregister]

/-- What holds after `c` was taken out of the room of an identifier: the room has lost this member
only, and if that was the last one, it is let go and no longer registered. -/
structure Left (b : Bucket) (s : Roster) (id : RoomId) (c : ChannelRef) (r : RoomRef)
    (closed : Bool) (b' : Bucket) (s' : Roster) : Prop where
  linked : s'.Linked
  bucket : b' = { b with rooms := b'.rooms }
  lookupRoom : ∀ id', b'.lookupRoom id' =
    if id' = id ∧ closed then none else b.lookupRoom id'
  closed_iff : closed = true ↔ (b.membersOf s id).erase c = []
  room_open : closed = false → ∃ room, s'.room? r = some room ∧ room.id = id ∧
    room.isDropped = false ∧ room.members = (b.membersOf s id).erase c
  room_closed : closed = true → s'.room? r = none
  room?_ne : ∀ r', r' ≠ r → s'.room? r' = s.room? r'
  channels : ∀ c', s'.channel? c' =
    if c' = c then (s.channel? c).map fun ch => { ch with link := none } else s.channel? c'

/-- A channel leaves the room that its link names, if that room is registered. -/
theorem leaveRoom_left (h : s.Linked) {slot : Nat} (hlink : s.link? c = some ⟨r, slot⟩)
    (hid : ∀ room, s.room? r = some room → b.lookupRoom room.id = some r ∧ room.id = id) :
    ∃ closed b' s', b.leaveRoom s c = (closed, b', s') ∧ b.Left s id c r closed b' s' := by
  obtain ⟨room, room', hroom, hremove, hlinked, hid', hd, hmem⟩ := h.remove hlink
  obtain ⟨hlookup, rfl⟩ := hid room hroom
  have hmembers : b.membersOf s room.id = room.members := by
    rw [membersOf, hlookup, Option.elim_some, Roster.members, hroom, Option.elim_some]
  have hlinkedRoom : s.linkedRoom? c = some (r, room) := by
    rw [Roster.linkedRoom?_eq, hlink, Option.bind_some, hroom, Option.map_some]
  have hchannels := s.channel?_relinked r room' c none
  have hrooms := Roster.room?_relinked hroom room' c none
  cases hclosed : room'.isDropped with
  | false =>
    have hleave : b.leaveRoom s c = (false, b, s.relinked r room' c none) := by
      simp [leaveRoom, hlinkedRoom, hremove, hclosed]
    refine ⟨false, b, s.relinked r room' c none, hleave, hlinked, rfl, ?_, ?_, ?_,
      Bool.noConfusion, ?_, hchannels⟩
    · intro id'
      simp
    · rw [hmembers, ← hmem, ← hd, hclosed]
    · intro
      refine ⟨room', ?_, hid', hclosed, ?_⟩
      · rw [hrooms, if_pos rfl]
      · rw [hmembers, hmem]
    · intro r' hne
      rw [hrooms, if_neg hne]
  | true =>
    have hempty : room'.members = [] := hd.mp hclosed
    have hleave : b.leaveRoom s c = (true, { b with rooms := b.rooms.erase room.id },
        (s.relinked r room' c none).release r) := by
      simp [leaveRoom, hlinkedRoom, hremove, hclosed, hlookup]
    refine ⟨true, { b with rooms := b.rooms.erase room.id }, (s.relinked r room' c none).release r,
      hleave, hlinked.release ?_, rfl, ?_, ?_, Bool.noConfusion, ?_, ?_, hchannels⟩
    · rw [Roster.members, hrooms, if_pos rfl, Option.elim_some, hempty]
    · intro id'
      simp [Bucket.lookupRoom]
    · simp [hmembers, ← hmem, hempty]
    · intro
      rw [Roster.room?_release, if_pos rfl]
    · intro r' hne
      rw [Roster.room?_release, if_neg hne, hrooms, if_neg hne]

end ChatRelay.Bucket
