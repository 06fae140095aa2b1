import ChatRelay.Membership.Hub
import ChatRelay.Membership.Sharding
import ChatRelay.Proofs.Membership.Bucket

/-!
# Coherence of a hub

Four records describe who is where: the user index and the room index of every bucket, the seats of
every room, and the user, room and link that every channel carries. A hub is `Coherent` if they
tell the same story.

Coherence says where a channel that has a link is, not who must have one. That is `Settled`, channel
by channel: a channel has a link exactly while it is registered with a room, and once its teardown
has begun no index names it. Between the two halves of a teardown one channel is not settled.
-/

namespace ChatRelay.Hub

/-- The room that a bucket has registered under an identifier. -/
def roomAt (h : Hub) (i : Nat) (id : RoomId) : Option RoomRef :=
  (h.buckets[i]?).bind fun b => b.lookupRoom id

/-- The channel that a bucket has registered for a user. -/
def userAt (h : Hub) (i : Nat) (user : UserId) : Option ChannelRef :=
  (h.buckets[i]?).bind fun b => b.lookupUser user

/-- The members of a room in a bucket, latest first. -/
def membersOf (h : Hub) (i : Nat) (id : RoomId) : List ChannelRef :=
  (h.roomAt i id).elim [] h.roster.members

/-- The bucket of a user. -/
def place (h : Hub) (user : UserId) : Nat :=
  user.bucketIndex h.buckets.length

/-- The indexes, the rooms and the channels agree. -/
structure Coherent (h : Hub) : Prop where
  linked : h.roster.Linked
  /-- A registered room exists under its own identifier, is not retired and has members. -/
  indexed : ∀ i id r, h.roomAt i id = some r → ∃ room, h.roster.room? r = some room ∧
    room.id = id ∧ room.isDropped = false ∧ room.members ≠ []
  roomAt_inj : ∀ i j id id' r, h.roomAt i id = some r → h.roomAt j id' = some r → i = j
  /-- A link leads to the room that the user's bucket has registered for the channel's room. -/
  placed : ∀ c channel link, h.roster.channel? c = some channel → channel.link = some link →
    channel.isJoined = true ∧ channel.room.isRoom = true ∧
      h.roomAt (h.place channel.user) channel.room = some link.room
  registered : ∀ i user c, h.userAt i user = some c → i = h.place user ∧
    user.isUnassigned = false ∧ ∃ channel, h.roster.channel? c = some channel ∧ channel.user = user

/-- A channel has a link exactly while it is registered with a room, and is in no user index once
its teardown has begun. -/
structure Settled (h : Hub) (c : ChannelRef) : Prop where
  link_iff : ∀ channel, h.roster.channel? c = some channel → (channel.link.isSome = true ↔
    channel.isJoined = true ∧ channel.isClosing = false ∧ channel.room.isRoom = true)
  unregistered : ∀ channel, h.roster.channel? c = some channel → channel.isClosing = true →
    ∀ i user, h.userAt i user ≠ some c

variable {h h' : Hub} {i j : Nat} {b b' : Bucket} {s s' : Roster} {c c' : ChannelRef}
  {user : UserId} {id : RoomId} {r : RoomRef} {channel : Channel}

/-! ## Replacing a bucket -/

/-- Replace a bucket and the roster. -/
def withBucket (h : Hub) (i : Nat) (b : Bucket) (s : Roster) : Hub :=
  { h with roster := s, buckets := h.buckets.set i b }

theorem roomAt_withBucket (hi : i < h.buckets.length) (b : Bucket) (s : Roster) (j : Nat)
    (id : RoomId) :
    (h.withBucket i b s).roomAt j id = if j = i then b.lookupRoom id else h.roomAt j id := by
  simp only [roomAt, withBucket, List.getElem?_set]
  by_cases hj : i = j
  · subst hj
    simp [hi]
  · simp [hj, Ne.symm hj]

theorem userAt_withBucket (hi : i < h.buckets.length) (b : Bucket) (s : Roster) (j : Nat)
    (user : UserId) :
    (h.withBucket i b s).userAt j user = if j = i then b.lookupUser user else h.userAt j user := by
  simp only [userAt, withBucket, List.getElem?_set]
  by_cases hj : i = j
  · subst hj
    simp [hi]
  · simp [hj, Ne.symm hj]

@[simp] theorem place_withBucket (h : Hub) (i : Nat) (b : Bucket) (s : Roster) (user : UserId) :
    (h.withBucket i b s).place user = h.place user := by
  simp only [place, withBucket, List.length_set]

theorem roomAt_of_bucket (hb : h.buckets[i]? = some b) (id : RoomId) :
    h.roomAt i id = b.lookupRoom id := by
  rw [roomAt, hb, Option.bind_some]

theorem userAt_of_bucket (hb : h.buckets[i]? = some b) (user : UserId) :
    h.userAt i user = b.lookupUser user := by
  rw [userAt, hb, Option.bind_some]

theorem lt_of_bucket (hb : h.buckets[i]? = some b) : i < h.buckets.length :=
  (List.getElem?_eq_some_iff.mp hb).1

theorem membersOf_of_bucket (hb : h.buckets[i]? = some b) (id : RoomId) :
    h.membersOf i id = b.membersOf h.roster id := by
  rw [membersOf, roomAt_of_bucket hb, Bucket.membersOf]

/-- A channel that has not joined has no link. -/
theorem Coherent.link_eq_none (hh : h.Coherent) (hc : h.roster.channel? c = some channel)
    (hj : channel.isJoined = false) : channel.link = none := by
  cases hl : channel.link with
  | none => rfl
  | some link =>
    have hjoined := (hh.placed c channel link hc hl).1
    rw [hj] at hjoined
    cases hjoined

/-- A room is registered in one bucket, under one identifier. -/
theorem Coherent.roomAt_unique (hh : h.Coherent) {id' : RoomId} (hr : h.roomAt i id = some r)
    (hr' : h.roomAt j id' = some r) : i = j ∧ id = id' := by
  obtain ⟨room, hroom, hid, -⟩ := hh.indexed i id r hr
  obtain ⟨room', hroom', hid', -⟩ := hh.indexed j id' r hr'
  rw [hroom] at hroom'
  obtain rfl := Option.some.inj hroom'
  exact ⟨hh.roomAt_inj i j id id' r hr hr', hid.symm.trans hid'⟩

/-- A channel is registered for the user that it carries, in this user's bucket. -/
theorem Coherent.userAt_unique (hh : h.Coherent) (hc : h.roster.channel? c = some channel)
    (hu : h.userAt i user = some c) :
    i = h.place user ∧ channel.user = user ∧ channel.isJoined = true := by
  obtain ⟨hi, hassigned, channel', hc', hu'⟩ := hh.registered i user c hu
  rw [hc] at hc'
  obtain rfl := Option.some.inj hc'
  refine ⟨hi, hu', ?_⟩
  rw [Channel.isJoined, hu', hassigned]
  rfl

/-! ## Changes that leave records alone -/

/-- Where links, rooms and room indexes stay, only what channels carry has to be looked at. -/
theorem Coherent.congr_rooms (hh : h.Coherent)
    (hlink : ∀ c, h'.roster.link? c = h.roster.link? c)
    (hrooms : ∀ r, h'.roster.room? r = h.roster.room? r)
    (hroomAt : ∀ j id, h'.roomAt j id = h.roomAt j id)
    (hplaced : ∀ c channel link, h'.roster.channel? c = some channel → channel.link = some link →
      channel.isJoined = true ∧ channel.room.isRoom = true ∧
        h.roomAt (h'.place channel.user) channel.room = some link.room)
    (hregistered : ∀ i user c, h'.userAt i user = some c → i = h'.place user ∧
      user.isUnassigned = false ∧
        ∃ channel, h'.roster.channel? c = some channel ∧ channel.user = user) : h'.Coherent where
  linked := hh.linked.congr hlink hrooms
  indexed j id r hr := by
    rw [hroomAt] at hr
    rw [hrooms]
    exact hh.indexed j id r hr
  roomAt_inj j k id id' r hr hr' := by
    rw [hroomAt] at hr hr'
    exact hh.roomAt_inj j k id id' r hr hr'
  placed c channel link hc hl := by
    rw [hroomAt]
    exact hplaced c channel link hc hl
  registered := hregistered

/-- The records depend on the roster's rooms and on what channels carry besides their mail. -/
theorem Coherent.congr (hh : h.Coherent) (hrooms : ∀ r, h'.roster.room? r = h.roster.room? r)
    (hchannels : ∀ c, ∃ f : Channel → Channel,
      h'.roster.channel? c = (h.roster.channel? c).map f ∧
        ∀ ch, (f ch).user = ch.user ∧ (f ch).room = ch.room ∧ (f ch).link = ch.link)
    (hroomAt : ∀ j id, h'.roomAt j id = h.roomAt j id)
    (huserAt : ∀ j user, h'.userAt j user = h.userAt j user)
    (hcount : h'.buckets.length = h.buckets.length) : h'.Coherent := by
  have hlink : ∀ c, h'.roster.link? c = h.roster.link? c := by
    intro c
    obtain ⟨f, hf, hkeep⟩ := hchannels c
    rw [Roster.link?, Roster.link?, hf]
    cases h.roster.channel? c with
    | none => rfl
    | some ch => exact (hkeep ch).2.2
  have hplace : ∀ user, h'.place user = h.place user := by
    intro user
    rw [place, place, hcount]
  refine hh.congr_rooms hlink hrooms hroomAt ?_ ?_
  · intro c channel link hc hl
    obtain ⟨f, hf, hkeep⟩ := hchannels c
    rw [hf] at hc
    obtain ⟨ch, hch, rfl⟩ := Option.map_eq_some_iff.mp hc
    obtain ⟨hu, hr, hl'⟩ := hkeep ch
    rw [hl'] at hl
    rw [Channel.isJoined, hu, hr, hplace]
    exact hh.placed c ch link hch hl
  · intro j user c hu
    rw [huserAt] at hu
    rw [hplace]
    obtain ⟨hj, hassigned, channel, hc, hcu⟩ := hh.registered j user c hu
    obtain ⟨f, hf, hkeep⟩ := hchannels c
    refine ⟨hj, hassigned, f channel, ?_, ?_⟩
    · rw [hf, hc, Option.map_some]
    · rw [(hkeep channel).1, hcu]

theorem Settled.congr (hs : h.Settled c)
    (hchannels : ∃ f : Channel → Channel,
      h'.roster.channel? c = (h.roster.channel? c).map f ∧
        ∀ ch, (f ch).user = ch.user ∧ (f ch).room = ch.room ∧ (f ch).link = ch.link ∧
          (f ch).isClosing = ch.isClosing)
    (huserAt : ∀ j user, h'.userAt j user = h.userAt j user) : h'.Settled c := by
  obtain ⟨f, hf, hkeep⟩ := hchannels
  constructor
  · intro channel hc
    rw [hf] at hc
    obtain ⟨ch, hch, rfl⟩ := Option.map_eq_some_iff.mp hc
    obtain ⟨hu, hr, hl, hcl⟩ := hkeep ch
    rw [hl, hcl, hr, Channel.isJoined, hu]
    exact hs.link_iff ch hch
  · intro channel hc hclosing j user
    rw [hf] at hc
    obtain ⟨ch, hch, rfl⟩ := Option.map_eq_some_iff.mp hc
    obtain ⟨-, -, -, hcl⟩ := hkeep ch
    rw [hcl] at hclosing
    rw [huserAt]
    exact hs.unregistered ch hch hclosing j user

/-- There is a bucket, the indexes, rooms and channels agree, and all channels are settled. -/
structure Sound (h : Hub) : Prop where
  nonempty : 0 < h.buckets.length
  coherent : h.Coherent
  settled : ∀ c, h.Settled c

namespace Sound

/-- Neither mail nor queues matter. -/
theorem congr (hh : h.Sound) (f : ChannelRef → Mailbox → Mailbox)
    (hroster : h'.roster = h.roster.mapMail f)
    (hroomAt : ∀ j id, h'.roomAt j id = h.roomAt j id)
    (huserAt : ∀ j user, h'.userAt j user = h.userAt j user)
    (hcount : h'.buckets.length = h.buckets.length) : h'.Sound where
  nonempty := by
    rw [hcount]
    exact hh.nonempty
  coherent := by
    refine hh.coherent.congr ?_ ?_ hroomAt huserAt hcount
    · intro r
      rw [hroster, Roster.room?_mapMail]
    · intro c
      refine ⟨fun ch => { ch with mailbox := f c ch.mailbox }, ?_, fun ch => ⟨rfl, rfl, rfl⟩⟩
      rw [hroster, Roster.channel?_mapMail]
  settled c := by
    refine (hh.settled c).congr ⟨fun ch => { ch with mailbox := f c ch.mailbox }, ?_, ?_⟩ huserAt
    · rw [hroster, Roster.channel?_mapMail]
    · exact fun ch => ⟨rfl, rfl, rfl, rfl⟩

theorem mapMail (hh : h.Sound) (f : ChannelRef → Mailbox → Mailbox) :
    ({ h with roster := h.roster.mapMail f } : Hub).Sound :=
  hh.congr f rfl (fun _ _ => rfl) (fun _ _ => rfl) rfl

theorem exists_bucket (hh : h.Sound) (user : UserId) :
    ∃ b, h.buckets[h.place user]? = some b := by
  have hindex := user.bucketIndex_lt h.buckets.length
  have hpos := hh.nonempty
  have hlt : h.place user < h.buckets.length := by
    rw [place]
    omega
  exact ⟨_, List.getElem?_eq_getElem hlt⟩

/-- The members of a room in a bucket are the channels that have joined it as users of this bucket
and whose teardown has not begun. -/
theorem mem_membersOf (hh : h.Sound) : c ∈ h.membersOf i id ↔ id.isRoom = true ∧
    ∃ channel, h.roster.channel? c = some channel ∧ channel.isJoined = true ∧
      channel.isClosing = false ∧ channel.room = id ∧ h.place channel.user = i := by
  constructor
  · intro hc
    rw [membersOf] at hc
    cases hr : h.roomAt i id with
    | none => simp [hr] at hc
    | some r =>
      rw [hr, Option.elim_some] at hc
      obtain ⟨slot, hlink⟩ := hh.coherent.linked.mem_members.mp hc
      obtain ⟨channel, hchannel, hl⟩ := Option.bind_eq_some_iff.mp hlink
      obtain ⟨hj, hroom, hplace⟩ := hh.coherent.placed c channel _ hchannel hl
      obtain ⟨hi, hid⟩ := hh.coherent.roomAt_unique hplace hr
      have hsome : channel.link.isSome = true := by rw [hl, Option.isSome_some]
      obtain ⟨-, hopen, -⟩ := ((hh.settled c).link_iff channel hchannel).mp hsome
      rw [hid] at hroom
      exact ⟨hroom, channel, hchannel, hj, hopen, hid, hi⟩
  · rintro ⟨hroom, channel, hchannel, hj, hopen, rfl, rfl⟩
    have hsome := ((hh.settled c).link_iff channel hchannel).mpr ⟨hj, hopen, hroom⟩
    obtain ⟨link, hl⟩ := Option.isSome_iff_exists.mp hsome
    obtain ⟨-, -, hplace⟩ := hh.coherent.placed c channel link hchannel hl
    rw [membersOf, hplace, Option.elim_some, hh.coherent.linked.mem_members,
      Roster.link?_of_channel? hchannel, hl]
    exact ⟨link.slot, rfl⟩

theorem nodup_membersOf (hh : h.Sound) (i : Nat) (id : RoomId) : (h.membersOf i id).Nodup := by
  rw [membersOf]
  cases h.roomAt i id with
  | none => exact List.nodup_nil
  | some r => exact hh.coherent.linked.nodup_members r

/-- A channel that is entered anew is in no record. -/
theorem addChannel (hh : h.Sound) (connId bound : Nat) :
    ({ h with roster := (h.roster.addChannel (.new connId bound)).2 } : Hub).Sound := by
  have hfresh := h.roster.channel?_addChannel_fst (.new connId bound)
  have hlink : ∀ c, (h.roster.addChannel (.new connId bound)).2.link? c = h.roster.link? c := by
    intro c
    rw [Roster.link?, Roster.link?, Roster.channel?_addChannel]
    split
    next he =>
      rw [he, hfresh]
      rfl
    next => rfl
  refine ⟨hh.nonempty, hh.coherent.congr_rooms hlink (fun _ => rfl) (fun _ _ => rfl) ?_ ?_, ?_⟩
  · intro c channel link hc hl
    rw [Roster.channel?_addChannel] at hc
    split at hc
    next =>
      obtain rfl := Option.some.inj hc
      cases hl
    next => exact hh.coherent.placed c channel link hc hl
  · intro j user c hu
    obtain ⟨hj, hassigned, channel, hc, hcu⟩ := hh.coherent.registered j user c hu
    refine ⟨hj, hassigned, channel, ?_, hcu⟩
    rw [Roster.channel?_addChannel, if_neg, hc]
    rintro rfl
    rw [hfresh] at hc
    cases hc
  · intro c
    constructor
    · intro channel hc
      rw [Roster.channel?_addChannel] at hc
      split at hc
      next =>
        obtain rfl := Option.some.inj hc
        simp [Channel.new, Channel.isJoined, UserId.isUnassigned, UserId.unassigned]
      next => exact (hh.settled c).link_iff channel hc
    · intro channel hc hclosing j user
      rw [Roster.channel?_addChannel] at hc
      split at hc
      next =>
        obtain rfl := Option.some.inj hc
        cases hclosing
      next => exact (hh.settled c).unregistered channel hc hclosing j user

/-- Where a teardown has begun, the records still agree, and all other channels stay settled. -/
theorem beginClose (hh : h.Sound) (c : ChannelRef) :
    ({ h with roster := (h.roster.beginClose c).2 } : Hub).Coherent ∧
      ∀ c', c' ≠ c → ({ h with roster := (h.roster.beginClose c).2 } : Hub).Settled c' := by
  rw [Roster.beginClose_snd]
  refine ⟨hh.coherent.congr (fun _ => rfl) ?_ (fun _ _ => rfl) (fun _ _ => rfl) rfl, ?_⟩
  · intro c'
    by_cases hc : c' = c
    · refine ⟨fun ch => { ch with isClosing := true }, ?_, fun ch => ⟨rfl, rfl, rfl⟩⟩
      rw [Roster.channel?_modifyChannel, if_pos hc]
    · refine ⟨id, ?_, fun ch => ⟨rfl, rfl, rfl⟩⟩
      rw [Roster.channel?_modifyChannel, if_neg hc, Option.map_id_fun, id]
  · intro c' hc
    refine (hh.settled c').congr ⟨id, ?_, fun ch => ⟨rfl, rfl, rfl, rfl⟩⟩ fun _ _ => rfl
    rw [Roster.channel?_modifyChannel, if_neg hc, Option.map_id_fun, id]

end Sound

/-! ## The start -/

theorem eq_new_of_bucket {config : BucketConfig} (hb : (new config).buckets[i]? = some b) :
    b = .new i config := by
  rw [new, List.getElem?_map, Option.map_eq_some_iff] at hb
  obtain ⟨k, hk, rfl⟩ := hb
  rw [(List.getElem?_eq_some_iff.mp hk).2.symm, List.getElem_range]

theorem roomAt_new (config : BucketConfig) (i : Nat) (id : RoomId) :
    (new config).roomAt i id = none := by
  cases hb : (new config).buckets[i]? with
  | none => rw [roomAt, hb, Option.bind_none]
  | some b =>
    rw [roomAt_of_bucket hb, eq_new_of_bucket hb]
    exact Table.find?_empty id

theorem userAt_new (config : BucketConfig) (i : Nat) (user : UserId) :
    (new config).userAt i user = none := by
  cases hb : (new config).buckets[i]? with
  | none => rw [userAt, hb, Option.bind_none]
  | some b =>
    rw [userAt_of_bucket hb, eq_new_of_bucket hb]
    exact Table.find?_empty user

theorem sound_new (config : BucketConfig) : (new config).Sound where
  nonempty := by
    have hlength : (new config).buckets.length = max config.count 1 := by
      rw [new, List.length_map, List.length_range]
    omega
  coherent := by
    refine ⟨Roster.Linked.empty, ?_, ?_, ?_, ?_⟩
    · intro i id r hr
      rw [roomAt_new] at hr
      cases hr
    · intro i j id id' r hr
      rw [roomAt_new] at hr
      cases hr
    · intro c channel link hc
      cases hc
    · intro i user c hu
      rw [userAt_new] at hu
      cases hu
  settled c := by
    constructor
    · intro channel hc
      cases hc
    · intro channel hc
      cases hc

end ChatRelay.Hub
