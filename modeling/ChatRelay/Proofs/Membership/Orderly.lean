import ChatRelay.Proofs.Membership.UserIndex

/-!
# Orderly buckets

A bucket on its own is `Orderly` if its room index lists the rooms there are, each under its own
identifier, a link leads to the room that is registered for the channel's room, and the user index
names channels that carry the user. A room that is registered may be retired; where none is, every
room has members (`Peopled`).

`Enrolled` and `Parted` list what the registration of a channel and its undoing lead to. What they
do to the members of rooms and to what channels carry is what they would do to plain lists and
records.
-/

namespace ChatRelay

namespace Roster

variable {s : Roster} {c : ChannelRef} {r : RoomRef}

theorem carried?_beginClose (s : Roster) (c c' : ChannelRef) : (s.beginClose c).2.carried? c' =
    if c' = c then (s.carried? c).map fun ch => { ch with isClosing := true }
    else s.carried? c' := by
  rw [beginClose_snd, carried?, channel?_modifyChannel]
  split
  next he =>
    rw [he, carried?, Option.map_map, Option.map_map]
    rfl
  next => rfl

/-- Nobody has joined, and there are no rooms yet. -/
structure Unjoined (s : Roster) : Prop where
  rooms : s.rooms = []
  channels : ∀ c channel, s.channel? c = some channel →
    channel.isJoined = false ∧ channel.isClosing = false ∧ channel.link = none

/-- All rooms have members. -/
def Peopled (s : Roster) : Prop :=
  ∀ r room, s.room? r = some room → room.members ≠ []

theorem unjoined_of_forall {channels : List Channel}
    (h : ∀ channel ∈ channels,
      channel.isJoined = false ∧ channel.isClosing = false ∧ channel.link = none) :
    Unjoined ⟨channels, []⟩ where
  rooms := rfl
  channels _ channel hc := h channel (List.mem_of_getElem? hc)

theorem Unjoined.room?_eq_none (h : s.Unjoined) (r : RoomRef) : s.room? r = none :=
  room?_eq_none_of_length_le (by rw [h.rooms]; exact Nat.zero_le _)

theorem Unjoined.link?_eq_none (h : s.Unjoined) (c : ChannelRef) : s.link? c = none := by
  cases hc : s.channel? c with
  | none => rw [link?, hc, Option.bind_none]
  | some channel => rw [link?_of_channel? hc, (h.channels c channel hc).2.2]

theorem Unjoined.linked (h : s.Unjoined) : s.Linked where
  seated r room hroom := by
    rw [h.room?_eq_none] at hroom
    cases hroom
  link_room c link hl := by
    rw [h.link?_eq_none] at hl
    cases hl

end Roster

namespace Bucket

variable {b b' : Bucket} {s s' : Roster} {user user' : UserId} {id id' : RoomId}
  {c c' : ChannelRef} {r : RoomRef} {channel : Channel} {closed : Bool}

/-- The room index lists the rooms there are, each under its own identifier, and a link leads to
the room that is registered for the channel's room. -/
structure Located (b : Bucket) (s : Roster) : Prop where
  linked : s.Linked
  lookupRoom_iff : ∀ id r,
    b.lookupRoom id = some r ↔ ∃ room, s.room? r = some room ∧ room.id = id
  placed : ∀ c channel link, s.channel? c = some channel → channel.link = some link →
    b.lookupRoom channel.room = some link.room

/-- Moreover, those who are in a room have joined, and the user index names channels that carry
the user. -/
structure Orderly (b : Bucket) (s : Roster) : Prop extends Located b s where
  joined : ∀ c channel link, s.channel? c = some channel → channel.link = some link →
    channel.isJoined = true
  owned : b.Owned s

theorem orderly_new (hs : s.Unjoined) (id : Nat) (config : BucketConfig) :
    (new id config).Orderly s where
  linked := hs.linked
  lookupRoom_iff id' r := by
    simp only [hs.room?_eq_none, reduceCtorEq, false_and, exists_false, iff_false]
    exact nofun
  placed c channel link hc hl := by
    rw [(hs.channels c channel hc).2.2] at hl
    cases hl
  joined c channel link hc hl := by
    rw [(hs.channels c channel hc).2.2] at hl
    cases hl
  owned := owned_new id config s

/-- A channel that has not joined has no link. -/
theorem Orderly.link_eq_none (h : b.Orderly s) (hc : s.channel? c = some channel)
    (hj : channel.isJoined = false) : channel.link = none := by
  cases hl : channel.link with
  | none => rfl
  | some link =>
    have hjoined := h.joined c channel link hc hl
    rw [hj] at hjoined
    cases hjoined

namespace Located

/-- A room is registered under one identifier. -/
theorem id_unique (h : b.Located s) (hr : b.lookupRoom id = some r)
    (hr' : b.lookupRoom id' = some r) : id = id' := by
  obtain ⟨room, hroom, rfl⟩ := (h.lookupRoom_iff id r).mp hr
  obtain ⟨room', hroom', rfl⟩ := (h.lookupRoom_iff id' r).mp hr'
  rw [hroom] at hroom'
  rw [Option.some.inj hroom']

/-- The members of a room are those whose link names the room that is registered. -/
theorem mem_membersOf_iff (h : b.Located s) : c ∈ b.membersOf s id ↔
    ∃ channel link, s.channel? c = some channel ∧ channel.link = some link ∧
      b.lookupRoom id = some link.room := by
  constructor
  · intro hc
    rw [membersOf] at hc
    cases hr : b.lookupRoom id with
    | none => simp [hr] at hc
    | some r =>
      rw [hr, Option.elim_some, h.linked.mem_members] at hc
      obtain ⟨slot, hlink⟩ := hc
      obtain ⟨channel, hchannel, hl⟩ := Option.bind_eq_some_iff.mp hlink
      exact ⟨channel, ⟨r, slot⟩, hchannel, hl, rfl⟩
  · rintro ⟨channel, link, hchannel, hl, hr⟩
    rw [membersOf, hr, Option.elim_some, h.linked.mem_members, Roster.link?_of_channel? hchannel,
      hl]
    exact ⟨link.slot, rfl⟩

/-- A member carries the room, and has a link. -/
theorem of_mem_membersOf (h : b.Located s) (hc : s.channel? c = some channel)
    (hmem : c ∈ b.membersOf s id) : channel.room = id ∧ channel.link ≠ none := by
  obtain ⟨channel', link, hc', hl, hr⟩ := h.mem_membersOf_iff.mp hmem
  rw [hc] at hc'
  obtain rfl := Option.some.inj hc'
  refine ⟨h.id_unique (h.placed c channel link hc hl) hr, ?_⟩
  rw [hl]
  exact Option.some_ne_none link

/-- A retired room that is registered has no members. -/
theorem membersOf_of_dropped (h : b.Located s) {room : Room} (hr : b.lookupRoom id = some r)
    (hroom : s.room? r = some room) (hd : room.isDropped = true) : b.membersOf s id = [] := by
  rw [membersOf, hr, Option.elim_some, h.linked.members_of_dropped hroom hd]

/-- Where rooms have members, none that is registered is retired. -/
theorem exists_room_of_peopled (h : b.Located s) (hp : s.Peopled) (hr : b.lookupRoom id = some r) :
    ∃ room, s.room? r = some room ∧ room.id = id ∧ room.isDropped = false := by
  obtain ⟨room, hroom, hid⟩ := (h.lookupRoom_iff id r).mp hr
  refine ⟨room, hroom, hid, Bool.eq_false_iff.mpr fun hd => hp r room hroom ?_⟩
  have hempty := h.linked.members_of_dropped hroom hd
  rwa [Roster.members, hroom, Option.elim_some] at hempty

/-- Changes that leave rooms, room index and links alone. -/
theorem congr (h : b.Located s) (hlink : ∀ c, s'.link? c = s.link? c)
    (hrooms : ∀ r, s'.room? r = s.room? r) (hlookup : ∀ id, b'.lookupRoom id = b.lookupRoom id)
    (hplaced : ∀ c channel link, s'.channel? c = some channel → channel.link = some link →
      b.lookupRoom channel.room = some link.room) : b'.Located s' where
  linked := h.linked.congr hlink hrooms
  lookupRoom_iff id r := by rw [hlookup, hrooms, h.lookupRoom_iff]
  placed c channel link hc hl := by
    rw [hlookup]
    exact hplaced c channel link hc hl

/-- The room that takes a channel in is registered under no other identifier. -/
theorem lookupRoom_ne_of_admitted (h : b.Located s) (ha : b.Admitted s id c r b' s')
    (hne : id' ≠ id) : b.lookupRoom id' ≠ some r := by
  intro hr
  rcases ha.known_or_fresh with ⟨hknown, -⟩ | ⟨hindex, -⟩
  · exact hne (h.id_unique hr hknown)
  · obtain ⟨room, hroom, -⟩ := (h.lookupRoom_iff id' r).mp hr
    have hlt := Roster.lt_length_of_room? hroom
    omega

/-- After a channel was taken in, the room index lists the rooms there are. A room that was replaced
is gone from both. -/
theorem lookupRoom_iff_of_admitted (h : b.Located s) (ha : b.Admitted s id c r b' s')
    (id' : RoomId) (r' : RoomRef) :
    b'.lookupRoom id' = some r' ↔ ∃ room, s'.room? r' = some room ∧ room.id = id' := by
  rw [ha.lookupRoom]
  by_cases hr : r' = r
  · subst hr
    obtain ⟨room, hroom, rfl, -⟩ := ha.room
    by_cases hid : id' = room.id
    · simp [hid, hroom]
    · simp [hid, Ne.symm hid, hroom, h.lookupRoom_ne_of_admitted ha hid]
  · rw [ha.room?_ne r' hr]
    by_cases hold : b.lookupRoom id = some r'
    · have hid : id' ≠ id → b.lookupRoom id' ≠ some r' :=
        fun hne hr' => hne (h.id_unique hr' hold)
      by_cases he : id' = id
      · simp [he, hold, Ne.symm hr]
      · simp [he, hold, hid he]
    · rw [if_neg hold, ← h.lookupRoom_iff]
      by_cases he : id' = id
      · simp [he, hold, Ne.symm hr]
      · simp [he]

/-- A room that takes a channel in is that of the members that were there: one with members is not
retired, and so not replaced. -/
theorem lookupRoom_of_admitted (h : b.Located s) (ha : b.Admitted s id c r b' s') {link : Link}
    (hc : s.channel? c' = some channel) (hl : channel.link = some link) :
    b'.lookupRoom channel.room = some link.room := by
  have hplaced := h.placed c' channel link hc hl
  rw [ha.lookupRoom]
  split
  next hid =>
    rw [hid] at hplaced
    rcases ha.known_or_fresh with ⟨hknown, -⟩ | ⟨-, -, hdropped⟩
    · exact hknown.symm.trans hplaced
    · obtain ⟨room, hroom, -⟩ := (h.lookupRoom_iff id link.room).mp hplaced
      have hmem : c' ∈ b.membersOf s id := h.mem_membersOf_iff.mpr ⟨channel, link, hc, hl, hplaced⟩
      rw [h.membersOf_of_dropped hplaced hroom (hdropped _ room hplaced hroom)] at hmem
      cases hmem
  next => exact hplaced

end Located

/-! ## Registering a channel -/

theorem act_put_of_unknown (hc : s.channel? c = none) (user : UserId) (id : RoomId) :
    b.act s (.put user id c) = (none, b, s) := by
  simp only [act, put, hc]

theorem act_put_of_joined (hc : s.channel? c = some channel) (hj : channel.isJoined = true)
    (user : UserId) (id : RoomId) :
    b.act s (.put user id c) = (some (.alreadyJoined channel.connId), b, s) := by
  simp only [act, put, hc, hj, if_true]

theorem act_put_of_closing (hc : s.channel? c = some channel) (hj : channel.isJoined = false)
    (hcl : channel.isClosing = true) (user : UserId) (id : RoomId) :
    b.act s (.put user id c) = (some (.closing channel.connId), b, s) := by
  simp only [act, put, hc, hj, hcl, if_true, Bool.false_eq_true, if_false]

/-- What registering a channel leads to: outside of all rooms, or in a room. -/
inductive Enrolled (b : Bucket) (s : Roster) (user : UserId) (id : RoomId) (c : ChannelRef) :
    Bucket → Roster → Prop
  | outside : id.isRoom = false →
    Enrolled b s user id c { b with users := b.users.insert user c }
      (s.modifyChannel c fun ch => ch.setJoined user id)
  | inside {r : RoomRef} {b' : Bucket} {s' : Roster} : id.isRoom = true →
    b.Admitted s id c r b' s' →
    Enrolled b s user id c { b' with users := b'.users.insert user c }
      (s'.modifyChannel c fun ch => ch.setJoined user id)

/-- A channel that has not joined and whose teardown has not begun is registered. -/
theorem Orderly.act_put_of_open (h : b.Orderly s) (hc : s.channel? c = some channel)
    (hj : channel.isJoined = false) (hcl : channel.isClosing = false) (user : UserId)
    (id : RoomId) :
    ∃ b' s', b.put s user id c = .ok (b', s') ∧ b.act s (.put user id c) = (none, b', s') ∧
      b.Enrolled s user id c b' s' := by
  cases hr : id.isRoom with
  | false =>
    have hput : b.put s user id c = .ok ({ b with users := b.users.insert user c },
        s.modifyChannel c fun ch => ch.setJoined user id) := by
      simp only [put, hc, hj, hcl, hr, Bool.false_eq_true, if_false]
    exact ⟨_, _, hput, by simp only [act, hput], .outside hr⟩
  | true =>
    obtain ⟨r, b', s', henter, ha⟩ := enterRoom_admitted h.linked hc (h.link_eq_none hc hj)
      fun r hr => (h.lookupRoom_iff id r).mp hr
    have hput : b.put s user id c = .ok ({ b' with users := b'.users.insert user c },
        s'.modifyChannel c fun ch => ch.setJoined user id) := by
      simp only [put, hc, hj, hcl, hr, henter, if_true, Bool.false_eq_true, if_false]
    exact ⟨_, _, hput, by simp only [act, hput], .inside hr ha⟩

namespace Enrolled

theorem lookupUser (he : b.Enrolled s user id c b' s') (user' : UserId) :
    b'.lookupUser user' = if user' = user then some c else b.lookupUser user' := by
  cases he with
  | outside => exact Table.find?_insert ..
  | inside _ ha =>
    rw [Bucket.lookupUser, Table.find?_insert, ha.bucket]
    rfl

/-- The channel carries the user and the room. -/
theorem channel? (he : b.Enrolled s user id c b' s') (hc : s.channel? c = some channel) :
    ∃ link : Option Link, ∀ c', s'.channel? c' =
      if c' = c then some { channel with user, room := id, link } else s.channel? c' := by
  cases he with
  | outside =>
    refine ⟨channel.link, fun c' => ?_⟩
    rw [Roster.channel?_modifyChannel]
    split
    next he =>
      rw [he, hc]
      rfl
    next => rfl
  | @inside r b' s' _ ha =>
    obtain ⟨slot, hslot⟩ := ha.channels
    refine ⟨some ⟨r, slot⟩, fun c' => ?_⟩
    rw [Roster.channel?_modifyChannel, hslot, hc]
    split
    next => rfl
    next => rfl

theorem carried? (he : b.Enrolled s user id c b' s') (hc : s.channel? c = some channel)
    (c' : ChannelRef) : s'.carried? c' =
      if c' = c then some { channel with user, room := id, link := none } else s.carried? c' := by
  obtain ⟨link, hchannels⟩ := he.channel? hc
  rw [Roster.carried?, hchannels]
  split
  next => rfl
  next => rfl

/-- The members of the room have the channel in front; all other rooms have the same members. -/
theorem membersOf (h : b.Located s) (he : b.Enrolled s user id c b' s') (id' : RoomId) :
    b'.membersOf s' id' =
      if id' = id ∧ id.isRoom = true then c :: b.membersOf s id else b.membersOf s id' := by
  cases he with
  | outside hid =>
    rw [hid, if_neg (fun he => Bool.false_ne_true he.2)]
    rfl
  | @inside r b₁ s₁ hid ha =>
    change b₁.membersOf s₁ id' = _
    rw [Bucket.membersOf, ha.lookupRoom]
    by_cases he : id' = id
    · obtain ⟨room, hroom, -, -, hmembers⟩ := ha.room
      rw [if_pos he, if_pos ⟨he, hid⟩, Option.elim_some, Roster.members, hroom, Option.elim_some,
        hmembers]
    · rw [if_neg he, if_neg (fun hand => he hand.1), Bucket.membersOf]
      cases hr : b.lookupRoom id' with
      | none => rfl
      | some r' =>
        have hne : r' ≠ r := by
          rintro rfl
          exact h.lookupRoom_ne_of_admitted ha he hr
        have hother : b.lookupRoom id ≠ some r' := fun hr' => he (h.id_unique hr hr')
        rw [Option.elim_some, Option.elim_some, Roster.members, Roster.members,
          ha.room?_ne r' hne, if_neg hother]

theorem located (h : b.Located s) (hc : s.channel? c = some channel)
    (hlink : channel.link = none) (he : b.Enrolled s user id c b' s') : b'.Located s' := by
  cases he with
  | outside =>
    refine h.congr (Roster.link?_setJoined s c user id) (fun _ => rfl) (fun _ => rfl) ?_
    intro c' channel' link' hc' hl'
    rw [Roster.channel?_modifyChannel] at hc'
    split at hc'
    next he =>
      rw [he, hc, Option.map_some] at hc'
      obtain rfl := Option.some.inj hc'
      rw [Channel.setJoined, hlink] at hl'
      cases hl'
    next => exact h.placed c' channel' link' hc' hl'
  | @inside r b₁ s₁ hid ha =>
    have hindexed := h.lookupRoom_iff_of_admitted ha
    refine ⟨ha.linked.congr (Roster.link?_setJoined s₁ c user id) fun _ => rfl, hindexed, ?_⟩
    intro c' channel' link' hc' hl'
    obtain ⟨slot, hchannels⟩ := ha.channels
    rw [Roster.channel?_modifyChannel, hchannels, hc] at hc'
    split at hc'
    next =>
      obtain rfl := Option.some.inj hc'
      obtain rfl := Option.some.inj hl'
      exact (ha.lookupRoom id).trans (if_pos rfl)
    next => exact h.lookupRoom_of_admitted ha hc' hl'

theorem orderly (h : b.Orderly s) (hc : s.channel? c = some channel)
    (hj : channel.isJoined = false) (hu : user.isUnassigned = false)
    (hput : b.put s user id c = .ok (b', s')) (he : b.Enrolled s user id c b' s') :
    b'.Orderly s' where
  toLocated := he.located h.toLocated hc (h.link_eq_none hc hj)
  joined c' channel' link' hc' hl' := by
    obtain ⟨link, hchannels⟩ := he.channel? hc
    rw [hchannels] at hc'
    split at hc'
    next =>
      rw [← Option.some.inj hc', Channel.isJoined, hu]
      rfl
    next => exact h.joined c' channel' link' hc' hl'
  owned := (indexes_put h.owned hc hu hput).owned

theorem peopled (hp : s.Peopled) (he : b.Enrolled s user id c b' s') : s'.Peopled := by
  cases he with
  | outside => exact hp
  | @inside r b₁ s₁ _ ha =>
    intro r' room' hr'
    change s₁.room? r' = some room' at hr'
    by_cases he : r' = r
    · obtain ⟨room, hroom, -, -, hmembers⟩ := ha.room
      rw [he, hroom] at hr'
      rw [← Option.some.inj hr', hmembers]
      exact List.cons_ne_nil c _
    · rw [ha.room?_ne r' he] at hr'
      split at hr'
      next => cases hr'
      next => exact hp r' room' hr'

end Enrolled

/-! ## Undoing a registration -/

/-- What undoing a registration leads to: the channel was in no room, or has left one, which is
closed if that was its last member. -/
inductive Parted (b : Bucket) (s : Roster) (c : ChannelRef) (channel : Channel) :
    Bool → Bucket → Roster → Prop
  | outside : channel.link = none → Parted b s c channel false (b.unregister channel.user c) s
  | inside {link : Link} {closed : Bool} {b' : Bucket} {s' : Roster} :
    channel.link = some link →
    (b.unregister channel.user c).Left s channel.room c link.room closed b' s' →
    Parted b s c channel closed b' s'

/-- The registration of a channel that has joined is undone. -/
theorem Located.remove_of_joined (h : b.Located s) (hc : s.channel? c = some channel)
    (hj : channel.isJoined = true) :
    ∃ closed b' s', b.remove s c = (some ⟨channel.user, channel.room, closed⟩, b', s') ∧
      b.Parted s c channel closed b' s' := by
  have hremove : b.remove s c =
      (some ⟨channel.user, channel.room, ((b.unregister channel.user c).leaveRoom s c).1⟩,
        ((b.unregister channel.user c).leaveRoom s c).2) := by
    simp only [remove, hc, hj, if_true]
    rfl
  cases hl : channel.link with
  | none =>
    refine ⟨_, _, _, ?_, .outside hl⟩
    rw [hremove, leaveRoom, Roster.linkedRoom?_eq, Roster.link?_of_channel? hc, hl,
      Option.bind_none]
  | some link =>
    obtain ⟨room, hroom, hid⟩ := (h.lookupRoom_iff _ _).mp (h.placed c channel link hc hl)
    have hlink : s.link? c = some ⟨link.room, link.slot⟩ := by
      rw [Roster.link?_of_channel? hc, hl]
    have hregistered : ∀ room', s.room? link.room = some room' →
        (b.unregister channel.user c).lookupRoom room'.id = some link.room ∧
          room'.id = channel.room := by
      intro room' hroom'
      rw [hroom] at hroom'
      rw [← Option.some.inj hroom', hid, lookupRoom_unregister]
      exact ⟨h.placed c channel link hc hl, rfl⟩
    obtain ⟨closed, b', s', hleave, hleft⟩ := leaveRoom_left h.linked hlink hregistered
    refine ⟨closed, b', s', ?_, .inside hl hleft⟩
    rw [hremove, hleave]

/-- A removal finds nothing to undo, or undoes the registration of a channel that has joined. -/
theorem Located.remove_cases (h : b.Located s) (c : ChannelRef) :
    (∀ channel, s.channel? c = some channel → channel.isJoined = false) ∧
        b.remove s c = (none, b, s) ∨
      ∃ channel closed b' s', s.channel? c = some channel ∧ channel.isJoined = true ∧
        b.remove s c = (some ⟨channel.user, channel.room, closed⟩, b', s') ∧
          b.Parted s c channel closed b' s' := by
  cases hc : s.channel? c with
  | none =>
    left
    exact ⟨nofun, by simp only [remove, hc]⟩
  | some channel =>
    cases hj : channel.isJoined with
    | false =>
      left
      refine ⟨fun channel' hc' => Option.some.inj hc' ▸ hj, ?_⟩
      simp only [remove, hc, hj, Bool.false_eq_true, if_false]
    | true =>
      obtain ⟨closed, b', s', hremove, hp⟩ := h.remove_of_joined hc hj
      exact .inr ⟨channel, closed, b', s', rfl, hj, hremove, hp⟩

namespace Located

/-- After a channel has left, the room index lists the rooms there are. A room that was closed is
gone from both. -/
theorem lookupRoom_iff_of_left (h : b.Located s)
    (hleft : (b.unregister user c).Left s id c r closed b' s') (hr : b.lookupRoom id = some r)
    (id' : RoomId) (r' : RoomRef) :
    b'.lookupRoom id' = some r' ↔ ∃ room, s'.room? r' = some room ∧ room.id = id' := by
  rw [hleft.lookupRoom, lookupRoom_unregister]
  by_cases hr' : r' = r
  · subst hr'
    have hid : id' ≠ id → b.lookupRoom id' ≠ some r' := fun hne hr' => hne (h.id_unique hr' hr)
    cases hclosed : closed with
    | true =>
      rw [hleft.room_closed hclosed]
      by_cases he : id' = id
      · simp [he]
      · simp [he, hid he]
    | false =>
      obtain ⟨room, hroom, hrid, -⟩ := hleft.room_open hclosed
      by_cases he : id' = id
      · simp [he, hr, hroom, hrid]
      · simp [hid he, hroom, hrid, Ne.symm he]
  · rw [hleft.room?_ne r' hr', ← h.lookupRoom_iff]
    by_cases he : id' = id
    · simp [he, hr, Ne.symm hr']
    · simp [he]

/-- A room that somebody else is in is not closed. -/
theorem lookupRoom_of_left (h : b.Located s)
    (hleft : (b.unregister user c).Left s id c r closed b' s') (hne : c' ≠ c) {link : Link}
    (hc : s.channel? c' = some channel) (hl : channel.link = some link) :
    b'.lookupRoom channel.room = some link.room := by
  have hplaced := h.placed c' channel link hc hl
  rw [hleft.lookupRoom, lookupRoom_unregister, if_neg, hplaced]
  rintro ⟨hroom, hclosed⟩
  have hmem : c' ∈ (b.membersOf s id).erase c := by
    rw [List.mem_erase_of_ne hne, h.mem_membersOf_iff]
    exact ⟨channel, link, hc, hl, hroom ▸ hplaced⟩
  rw [← membersOf_unregister b user c, hleft.closed_iff.mp hclosed] at hmem
  cases hmem

end Located

namespace Parted

theorem lookupUser (hp : b.Parted s c channel closed b' s') (user : UserId) :
    b'.lookupUser user = if user = channel.user ∧ b.lookupUser channel.user = some c then none
      else b.lookupUser user := by
  rw [← lookupUser_unregister]
  cases hp with
  | outside => rfl
  | inside _ hleft =>
    rw [hleft.bucket]
    rfl

theorem channel? (hp : b.Parted s c channel closed b' s') (hc : s.channel? c = some channel)
    (c' : ChannelRef) : s'.channel? c' =
      if c' = c then some { channel with link := none } else s.channel? c' := by
  cases hp with
  | outside hl =>
    split
    next he =>
      rw [he, hc]
      cases channel
      cases hl
      rfl
    next => rfl
  | inside _ hleft =>
    rw [hleft.channels, hc, Option.map_some]

theorem carried? (hp : b.Parted s c channel closed b' s') (hc : s.channel? c = some channel)
    (c' : ChannelRef) : s'.carried? c' = s.carried? c' := by
  rw [Roster.carried?, Roster.carried?, hp.channel? hc]
  split
  next he =>
    rw [he, hc]
    rfl
  next => rfl

/-- The channel is taken out of the members of every room. -/
theorem membersOf (h : b.Located s) (hp : b.Parted s c channel closed b' s')
    (hc : s.channel? c = some channel) (id : RoomId) :
    b'.membersOf s' id = (b.membersOf s id).erase c := by
  cases hp with
  | outside hl =>
    rw [membersOf_unregister, List.erase_of_not_mem]
    exact fun hmem => (h.of_mem_membersOf hc hmem).2 hl
  | @inside link _ b₁ s₁ hl hleft =>
    have hplaced := h.placed c channel link hc hl
    by_cases he : id = channel.room
    · subst he
      cases hclosed : closed with
      | true =>
        have hnone := hleft.lookupRoom channel.room
        rw [hclosed, if_pos ⟨rfl, rfl⟩] at hnone
        rw [Bucket.membersOf, hnone, ← membersOf_unregister b channel.user c,
          hleft.closed_iff.mp hclosed]
        rfl
      | false =>
        have hsome := hleft.lookupRoom channel.room
        rw [hclosed, if_neg (fun he => Bool.false_ne_true he.2), lookupRoom_unregister,
          hplaced] at hsome
        obtain ⟨room, hroom, -, -, hmembers⟩ := hleft.room_open hclosed
        rw [Bucket.membersOf, hsome, Option.elim_some, Roster.members, hroom, Option.elim_some,
          hmembers, membersOf_unregister]
    · have hother : c ∉ b.membersOf s id := fun hmem => he (h.of_mem_membersOf hc hmem).1.symm
      rw [List.erase_of_not_mem hother, Bucket.membersOf, hleft.lookupRoom,
        if_neg (fun hand => he hand.1), lookupRoom_unregister, Bucket.membersOf]
      cases hr : b.lookupRoom id with
      | none => rfl
      | some r =>
        have hne : r ≠ link.room := by
          rintro rfl
          exact he (h.id_unique hr hplaced)
        rw [Option.elim_some, Option.elim_some, Roster.members, Roster.members,
          hleft.room?_ne r hne]

theorem located (h : b.Located s) (hp : b.Parted s c channel closed b' s')
    (hc : s.channel? c = some channel) : b'.Located s' := by
  have hchannels := hp.channel? hc
  cases hp with
  | outside =>
    exact h.congr (fun _ => rfl) (fun _ => rfl) (lookupRoom_unregister b channel.user c) h.placed
  | @inside link _ b₁ s₁ hl hleft =>
    have hindexed := h.lookupRoom_iff_of_left hleft (h.placed c channel link hc hl)
    refine ⟨hleft.linked, hindexed, ?_⟩
    intro c' channel' link' hc' hl'
    rw [hchannels] at hc'
    split at hc'
    next =>
      rw [← Option.some.inj hc'] at hl'
      cases hl'
    next hne => exact h.lookupRoom_of_left hleft hne hc' hl'

theorem peopled (hpeopled : s.Peopled) (hp : b.Parted s c channel closed b' s') : s'.Peopled := by
  cases hp with
  | outside => exact hpeopled
  | @inside link _ b₁ s₁ _ hleft =>
    intro r room hr
    by_cases he : r = link.room
    · subst he
      cases hclosed : closed with
      | true =>
        rw [hleft.room_closed hclosed] at hr
        cases hr
      | false =>
        obtain ⟨room', hroom', -, -, hmembers⟩ := hleft.room_open hclosed
        rw [hroom'] at hr
        rw [← Option.some.inj hr, hmembers]
        intro hnil
        rw [hleft.closed_iff.mpr hnil] at hclosed
        cases hclosed
    · rw [hleft.room?_ne r he] at hr
      exact hpeopled r room hr

end Parted

end Bucket

end ChatRelay
