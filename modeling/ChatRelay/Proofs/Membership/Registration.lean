import ChatRelay.Proofs.Membership.Queues

/-!
# Registering channels and undoing it

`Joined` and `Removed` list the hubs to which a registration and its undoing lead, and each keeps a
hub coherent and all channels settled. A registration is refused only to a channel that has joined
or whose teardown has begun; no room of a coherent hub refuses anyone. Undoing takes the channel
out of its room and, unless a newer channel has taken its place there, out of the user index.
-/

namespace ChatRelay.Hub

variable {h h' : Hub} {i j : Nat} {b b' : Bucket} {s s' : Roster} {c c' : ChannelRef}
  {user : UserId} {id : RoomId} {r : RoomRef} {channel : Channel}

theorem withBucket_sameQueues (hb : h.buckets[i]? = some b) (hqueues : b'.queues = b.queues)
    (hbound : b'.queueBound = b.queueBound) (hturn : b'.turn = b.turn) :
    SameQueues h (h.withBucket i b' s) where
  awake := rfl
  buckets j := by
    simp only [withBucket, List.getElem?_set]
    split
    next he =>
      rw [← he, hb, if_pos (lt_of_bucket hb)]
      simp only [Option.map_some, hqueues, hbound, hturn]
    next => rfl

/-! ## Joining -/

/-- The hubs to which registering a channel leads: outside of all rooms, or in a room. -/
inductive Joined (h : Hub) (i : Nat) (b : Bucket) (user : UserId) (id : RoomId) (c : ChannelRef) :
    Hub → Prop
  | outside : id.isRoom = false →
    Joined h i b user id c (h.withBucket i { b with users := b.users.insert user c }
      (h.roster.modifyChannel c fun ch => ch.setJoined user id))
  | inside {r : RoomRef} {b' : Bucket} {s' : Roster} : id.isRoom = true →
    b.Entered h.roster id c r b' s' →
    Joined h i b user id c (h.withBucket i { b' with users := b'.users.insert user c }
      (s'.modifyChannel c fun ch => ch.setJoined user id))

/-- Registering refuses a channel that has joined, then one whose teardown has begun, and takes
every other one in. -/
theorem Coherent.put_cases (hh : h.Coherent) (hb : h.buckets[i]? = some b)
    (hc : h.roster.channel? c = some channel) (user : UserId) (id : RoomId) :
    channel.isJoined = true ∧ h.put i user id c = .error (.alreadyJoined channel.connId) ∨
    channel.isJoined = false ∧ channel.isClosing = true ∧
      h.put i user id c = .error (.closing channel.connId) ∨
    channel.isJoined = false ∧ channel.isClosing = false ∧
      ∃ h', h.put i user id c = .ok h' ∧ h.Joined i b user id c h' := by
  have hput : h.put i user id c = (b.put h.roster user id c).map fun bs =>
      h.withBucket i bs.1 bs.2 := by
    simp only [put, onBucket, hb]
    rfl
  rw [hput]
  cases hj : channel.isJoined with
  | true =>
    left
    refine ⟨rfl, ?_⟩
    simp only [Bucket.put, hc, hj, if_true]
    rfl
  | false =>
    right
    cases hcl : channel.isClosing with
    | true =>
      left
      refine ⟨rfl, rfl, ?_⟩
      simp only [Bucket.put, hc, hj, hcl, if_true, Bool.false_eq_true, if_false]
      rfl
    | false =>
      right
      refine ⟨rfl, rfl, ?_⟩
      cases hr : id.isRoom with
      | false =>
        refine ⟨_, ?_, .outside hr⟩
        simp only [Bucket.put, hc, hj, hcl, hr, Bool.false_eq_true, if_false]
        rfl
      | true =>
        have hlink := hh.link_eq_none hc hj
        have hregistered : ∀ r, b.lookupRoom id = some r →
            ∃ room, h.roster.room? r = some room ∧ room.id = id ∧ room.isDropped = false := by
          intro r hr
          have hat : h.roomAt i id = some r := (roomAt_of_bucket hb id).trans hr
          obtain ⟨room, hroom, hid, hd, -⟩ := hh.indexed i id r hat
          exact ⟨room, hroom, hid, hd⟩
        obtain ⟨r, b', s', henter, hentered⟩ :=
          Bucket.enterRoom_entered hh.linked hc hlink hregistered
        refine ⟨_, ?_, .inside hr hentered⟩
        simp only [Bucket.put, hc, hj, hcl, hr, henter, if_true, Bool.false_eq_true, if_false]
        rfl

namespace Joined

theorem userAt (hj : h.Joined i b user id c h') (hb : h.buckets[i]? = some b) (j : Nat)
    (user' : UserId) :
    h'.userAt j user' = if j = i ∧ user' = user then some c else h.userAt j user' := by
  have hi := lt_of_bucket hb
  have hold := userAt_of_bucket hb user'
  cases hj with
  | outside =>
    rw [userAt_withBucket hi, Bucket.lookupUser, Table.find?_insert]
    by_cases hji : j = i
    · subst hji
      rw [hold]
      simp [Bucket.lookupUser]
    · simp [hji]
  | inside _ he =>
    rw [userAt_withBucket hi, Bucket.lookupUser, Table.find?_insert, he.bucket]
    by_cases hji : j = i
    · subst hji
      rw [hold]
      simp [Bucket.lookupUser]
    · simp [hji]

theorem sameQueues (hj : h.Joined i b user id c h') (hb : h.buckets[i]? = some b) :
    SameQueues h h' := by
  cases hj with
  | outside =>
    refine withBucket_sameQueues hb rfl rfl rfl
  | inside _ he =>
    rw [he.bucket]
    refine withBucket_sameQueues hb rfl rfl rfl

/-- The channel that joins carries the user and the room, and a link if the room is one. -/
theorem channel? (hj : h.Joined i b user id c h') (hc : h.roster.channel? c = some channel)
    (hlink : channel.link = none) :
    ∃ link, (link.isSome = true ↔ id.isRoom = true) ∧ ∀ c', h'.roster.channel? c' =
      if c' = c then some { channel with user, room := id, link } else h.roster.channel? c' := by
  cases hj with
  | outside hid =>
    refine ⟨none, by simp [hid], fun c' => ?_⟩
    simp only [withBucket, Roster.channel?_modifyChannel]
    split
    next he =>
      rw [he, hc, ← hlink]
      rfl
    next => rfl
  | @inside r b' s' hid he =>
    obtain ⟨slot, hslot⟩ := he.channels
    refine ⟨some ⟨r, slot⟩, by simp [hid], fun c' => ?_⟩
    simp only [withBucket, Roster.channel?_modifyChannel, hslot, hc]
    split
    next => rfl
    next => rfl

/-- The bucket that a channel enters has its room registered; nothing else is registered anew. -/
theorem roomAt_iff (hb : h.buckets[i]? = some b) {b' : Bucket} {s' : Roster}
    (he : b.Entered h.roster id c r b' s') (s : Roster) (users : Table UserId ChannelRef) (j : Nat)
    (id' : RoomId) (r' : RoomRef) :
    (h.withBucket i { b' with users } s).roomAt j id' = some r' ↔
      j = i ∧ id' = id ∧ r' = r ∨ h.roomAt j id' = some r' := by
  rw [roomAt_withBucket (lt_of_bucket hb)]
  by_cases hj : j = i
  · subst hj
    rw [if_pos rfl, roomAt_of_bucket hb]
    change b'.lookupRoom id' = some r' ↔ _
    rw [he.lookupRoom]
    by_cases hid : id' = id
    · subst hid
      rw [if_pos rfl]
      rcases he.known_or_fresh with hk | ⟨hk, -⟩
      · rw [hk]
        simp [eq_comm]
      · rw [hk]
        simp [eq_comm]
    · simp [hid]
  · simp [hj]

theorem place (hj : h.Joined i b user id c h') (user' : UserId) :
    h'.place user' = h.place user' := by
  cases hj with
  | outside => exact place_withBucket ..
  | inside => exact place_withBucket ..

theorem registered (hh : h.Coherent) (hj : h.Joined i b user id c h')
    (hb : h.buckets[i]? = some b) (hc : h.roster.channel? c = some channel)
    (hfresh : channel.isJoined = false) (huser : user.isUnassigned = false)
    (hi : i = h.place user) (j : Nat) (user' : UserId) (c' : ChannelRef)
    (hu : h'.userAt j user' = some c') : j = h'.place user' ∧ user'.isUnassigned = false ∧
      ∃ channel', h'.roster.channel? c' = some channel' ∧ channel'.user = user' := by
  obtain ⟨link, -, hchannels⟩ := hj.channel? hc (hh.link_eq_none hc hfresh)
  rw [hj.userAt hb] at hu
  rw [hj.place]
  split at hu
  next he =>
    obtain ⟨rfl, rfl⟩ := he
    obtain rfl := Option.some.inj hu
    refine ⟨hi, huser, { channel with user := user', room := id, link }, ?_, rfl⟩
    rw [hchannels, if_pos rfl]
  next =>
    obtain ⟨hplace, hassigned, channel', hc', hu'⟩ := hh.registered j user' c' hu
    have hne : c' ≠ c := by
      rintro rfl
      obtain ⟨-, -, hjoined⟩ := hh.userAt_unique hc hu
      rw [hfresh] at hjoined
      cases hjoined
    refine ⟨hplace, hassigned, channel', ?_, hu'⟩
    rw [hchannels, if_neg hne, hc']

/-- The room that is entered was registered nowhere else. -/
theorem eq_of_roomAt (hh : h.Coherent) (hb : h.buckets[i]? = some b)
    (he : b.Entered h.roster id c r b' s') {id' : RoomId} (hr : h.roomAt j id' = some r) :
    j = i ∧ id' = id := by
  rcases he.known_or_fresh with hknown | ⟨-, hfresh⟩
  · rw [← roomAt_of_bucket hb] at hknown
    exact hh.roomAt_unique hr hknown
  · obtain ⟨room, hroom, -⟩ := hh.indexed j id' r hr
    rw [hfresh] at hroom
    cases hroom

/-- After a channel has entered a room, registered rooms still exist and have members. -/
theorem indexed (hh : h.Coherent) (hb : h.buckets[i]? = some b)
    (he : b.Entered h.roster id c r b' s') (users : Table UserId ChannelRef) (s : Roster)
    (hs : ∀ r, s.room? r = s'.room? r) (j : Nat) (id' : RoomId) (r' : RoomRef)
    (hr : (h.withBucket i { b' with users } s).roomAt j id' = some r') :
    ∃ room, s.room? r' = some room ∧ room.id = id' ∧ room.isDropped = false ∧
      room.members ≠ [] := by
  obtain ⟨room, hroom, hid, hd, hmembers⟩ := he.room
  have hne : room.members ≠ [] := by
    rw [hmembers]
    exact List.cons_ne_nil _ _
  rw [hs]
  rcases (roomAt_iff hb he s users j id' r').mp hr with ⟨-, rfl, rfl⟩ | hold
  · exact ⟨room, hroom, hid, hd, hne⟩
  · by_cases hrr : r' = r
    · subst hrr
      obtain ⟨-, rfl⟩ := eq_of_roomAt hh hb he hold
      exact ⟨room, hroom, hid, hd, hne⟩
    · rw [he.room?_ne r' hrr]
      exact hh.indexed j id' r' hold

/-- After a channel has entered a room, each room is still registered in one bucket only. -/
theorem roomAt_inj (hh : h.Coherent) (hb : h.buckets[i]? = some b)
    (he : b.Entered h.roster id c r b' s') (users : Table UserId ChannelRef) (s : Roster)
    (j k : Nat) (id' id'' : RoomId) (r' : RoomRef)
    (hr : (h.withBucket i { b' with users } s).roomAt j id' = some r')
    (hr' : (h.withBucket i { b' with users } s).roomAt k id'' = some r') : j = k := by
  have hrooms := roomAt_iff hb he s users
  rcases (hrooms j id' r').mp hr with ⟨hj, -, rfl⟩ | hold
  · rcases (hrooms k id'' r').mp hr' with ⟨hk, -, -⟩ | hold'
    · rw [hj, hk]
    · rw [hj, (eq_of_roomAt hh hb he hold').1]
  · rcases (hrooms k id'' r').mp hr' with ⟨hk, -, rfl⟩ | hold'
    · rw [hk, (eq_of_roomAt hh hb he hold).1]
    · exact hh.roomAt_inj j k id' id'' r' hold hold'

/-- Registering a channel that has not joined, in the bucket of its user, keeps a hub coherent. -/
theorem coherent (hh : h.Coherent) (hj : h.Joined i b user id c h')
    (hb : h.buckets[i]? = some b) (hc : h.roster.channel? c = some channel)
    (hfresh : channel.isJoined = false) (huser : user.isUnassigned = false)
    (hi : i = h.place user) : h'.Coherent := by
  have hregistered := hj.registered hh hb hc hfresh huser hi
  obtain ⟨link, hlinkroom, hchannels⟩ := hj.channel? hc (hh.link_eq_none hc hfresh)
  have hplace := hj.place
  cases hj with
  | outside hid =>
    have hrooms : ∀ j id', (h.withBucket i { b with users := b.users.insert user c }
        (h.roster.modifyChannel c fun ch => ch.setJoined user id)).roomAt j id' =
          h.roomAt j id' := by
      intro j id'
      rw [roomAt_withBucket (lt_of_bucket hb)]
      split
      next he =>
        rw [he, roomAt_of_bucket hb]
        rfl
      next => rfl
    refine hh.congr_rooms (Roster.link?_setJoined _ c user id) (fun _ => rfl) hrooms ?_ hregistered
    intro c' channel' link' hc' hl
    rw [hchannels] at hc'
    rw [hplace]
    split at hc'
    next =>
      obtain rfl := Option.some.inj hc'
      change link = some link' at hl
      rw [hl, hid] at hlinkroom
      simp at hlinkroom
    next => exact hh.placed c' channel' link' hc' hl
  | @inside r b' s' hid he =>
    have hrooms := roomAt_iff hb he (s'.modifyChannel c fun ch => ch.setJoined user id)
      (b'.users.insert user c)
    refine ⟨he.linked.congr (Roster.link?_setJoined _ c user id) fun _ => rfl,
      indexed hh hb he _ _ fun _ => rfl, roomAt_inj hh hb he _ _, ?_, hregistered⟩
    intro c' channel' link' hc' hl
    rw [hchannels] at hc'
    rw [hplace]
    split at hc'
    next =>
      obtain rfl := Option.some.inj hc'
      have hjoined : ({ channel with user, room := id, link } : Channel).isJoined = true := by
        simp [Channel.isJoined, huser]
      obtain ⟨slot, hslot⟩ := he.channels
      have hnew := hchannels c
      simp only [withBucket, Roster.channel?_modifyChannel, hslot, hc, if_true, Option.map_some,
        Option.some.injEq] at hnew
      have hlr : some ⟨r, slot⟩ = some link' := (congrArg Channel.link hnew).trans hl
      obtain rfl := Option.some.inj hlr
      exact ⟨hjoined, hid, (hrooms _ _ _).mpr (.inl ⟨hi.symm, rfl, rfl⟩)⟩
    next =>
      obtain ⟨hj', hroom, hr⟩ := hh.placed c' channel' link' hc' hl
      exact ⟨hj', hroom, (hrooms _ _ _).mpr (.inr hr)⟩

/-- Registering a channel whose teardown has not begun settles it, and all others stay settled. -/
theorem settled (hh : h.Coherent) (hj : h.Joined i b user id c h') (hb : h.buckets[i]? = some b)
    (hc : h.roster.channel? c = some channel) (hfresh : channel.isJoined = false)
    (hopen : channel.isClosing = false) (huser : user.isUnassigned = false)
    (hs : h.Settled c') : h'.Settled c' := by
  obtain ⟨link, hlink, hchannels⟩ := hj.channel? hc (hh.link_eq_none hc hfresh)
  constructor
  · intro channel' hc'
    rw [hchannels] at hc'
    split at hc'
    next =>
      obtain rfl := Option.some.inj hc'
      simp [Channel.isJoined, huser, hopen, hlink]
    next => exact hs.link_iff channel' hc'
  · intro channel' hc' hclosing j user' hu
    rw [hchannels] at hc'
    rw [hj.userAt hb] at hu
    split at hc'
    next =>
      obtain rfl := Option.some.inj hc'
      change channel.isClosing = true at hclosing
      rw [hopen] at hclosing
      cases hclosing
    next hne =>
      split at hu
      next => exact hne (Option.some.inj hu).symm
      next => exact hs.unregistered channel' hc' hclosing j user' hu

end Joined

/-! ## Leaving -/

/-- The hubs to which undoing a registration leads. -/
inductive Removed (h : Hub) (i : Nat) (b : Bucket) (c : ChannelRef) (channel : Channel) :
    Bool → Hub → Prop
  | outside : channel.link = none →
    Removed h i b c channel false (h.withBucket i (b.unregister channel.user c) h.roster)
  | inside {link : Link} {closed : Bool} {b' : Bucket} {s' : Roster} : channel.link = some link →
    (b.unregister channel.user c).Left h.roster channel.room c link.room closed b' s' →
    Removed h i b c channel closed (h.withBucket i b' s')

theorem Coherent.remove_joined (hh : h.Coherent) (hb : h.buckets[i]? = some b)
    (hc : h.roster.channel? c = some channel) (hj : channel.isJoined = true)
    (hi : i = h.place channel.user) :
    ∃ closed h', h.remove i c = (some ⟨channel.user, channel.room, closed⟩, h') ∧
      h.Removed i b c channel closed h' := by
  cases hl : channel.link with
  | none =>
    have hleave : (b.unregister channel.user c).leaveRoom h.roster c =
        (false, b.unregister channel.user c, h.roster) := by
      have hnone : h.roster.linkedRoom? c = none := by
        rw [Roster.linkedRoom?_eq, Roster.link?_of_channel? hc, hl, Option.bind_none]
      simp only [Bucket.leaveRoom, hnone]
    refine ⟨false, _, ?_, .outside hl⟩
    have hremove : b.remove h.roster c = (some ⟨channel.user, channel.room, false⟩,
        b.unregister channel.user c, h.roster) := by
      simp only [Bucket.remove, hc, hj, if_true]
      rw [← Bucket.unregister, hleave]
    simp only [remove, hb, hremove]
    rfl
  | some link =>
    obtain ⟨-, -, hr⟩ := hh.placed c channel link hc hl
    obtain ⟨room, hroom, hid, -⟩ := hh.indexed _ _ _ hr
    rw [← hi, roomAt_of_bucket hb] at hr
    have hlink : h.roster.link? c = some ⟨link.room, link.slot⟩ := by
      rw [Roster.link?_of_channel? hc, hl]
    have hregistered : ∀ room, h.roster.room? link.room = some room →
        (b.unregister channel.user c).lookupRoom room.id = some link.room ∧
          room.id = channel.room := by
      intro room' hroom'
      rw [hroom] at hroom'
      obtain rfl := Option.some.inj hroom'
      refine ⟨?_, hid⟩
      rw [Bucket.lookupRoom_unregister, hid, hr]
    obtain ⟨closed, b', s', hleave, hleft⟩ := Bucket.leaveRoom_left hh.linked hlink hregistered
    refine ⟨closed, _, ?_, .inside hl hleft⟩
    have hremove : b.remove h.roster c =
        (some ⟨channel.user, channel.room, closed⟩, b', s') := by
      simp only [Bucket.remove, hc, hj, if_true]
      rw [← Bucket.unregister, hleave]
    simp only [remove, hb, hremove]
    rfl

namespace Removed

variable {closed : Bool}

theorem channel? (hr : h.Removed i b c channel closed h') (hc : h.roster.channel? c = some channel)
    (c' : ChannelRef) : h'.roster.channel? c' =
      if c' = c then some { channel with link := none } else h.roster.channel? c' := by
  cases hr with
  | outside hl =>
    change h.roster.channel? c' = _
    split
    next he => rw [he, hc, ← hl]
    next => rfl
  | inside hl hleft =>
    refine (hleft.channels c').trans ?_
    rw [hc]
    rfl

theorem place (hr : h.Removed i b c channel closed h') (user : UserId) :
    h'.place user = h.place user := by
  cases hr with
  | outside => exact place_withBucket ..
  | inside => exact place_withBucket ..

theorem sameQueues (hr : h.Removed i b c channel closed h') (hb : h.buckets[i]? = some b) :
    SameQueues h h' := by
  have hkeep : (b.unregister channel.user c).queues = b.queues ∧
      (b.unregister channel.user c).queueBound = b.queueBound ∧
      (b.unregister channel.user c).turn = b.turn := by
    unfold Bucket.unregister
    split <;> exact ⟨rfl, rfl, rfl⟩
  obtain ⟨hqueues, hbound, hturn⟩ := hkeep
  cases hr with
  | outside => exact withBucket_sameQueues hb hqueues hbound hturn
  | inside _ hl =>
    rw [hl.bucket]
    exact withBucket_sameQueues hb hqueues hbound hturn

/-- Only the entry that names the channel is taken out of the user indexes. -/
theorem userAt (hh : h.Coherent) (hr : h.Removed i b c channel closed h')
    (hb : h.buckets[i]? = some b) (hc : h.roster.channel? c = some channel)
    (hi : i = h.place channel.user) (j : Nat) (user : UserId) :
    h'.userAt j user = if h.userAt j user = some c then none else h.userAt j user := by
  have hbucket : ∀ j, h'.userAt j user =
      if j = i then (b.unregister channel.user c).lookupUser user else h.userAt j user := by
    intro j
    cases hr with
    | outside => exact userAt_withBucket (lt_of_bucket hb) ..
    | inside hl hleft =>
      rw [userAt_withBucket (lt_of_bucket hb), hleft.bucket]
      rfl
  rw [hbucket, Bucket.lookupUser_unregister]
  by_cases hji : j = i
  · subst hji
    rw [if_pos rfl, ← userAt_of_bucket hb, ← userAt_of_bucket hb]
    by_cases hu : h.userAt j user = some c
    · obtain ⟨-, rfl, -⟩ := hh.userAt_unique hc hu
      rw [if_pos hu, if_pos ⟨rfl, hu⟩]
    · rw [if_neg hu, if_neg]
      rintro ⟨rfl, hu'⟩
      exact hu hu'
  · have hne : h.userAt j user ≠ some c := by
      intro hu
      obtain ⟨hj, rfl, -⟩ := hh.userAt_unique hc hu
      exact hji (hj.trans hi.symm)
    rw [if_neg hji, if_neg hne]

/-- A room that was left stays registered unless it was retired; all others stay. -/
theorem roomAt_iff (hb : h.buckets[i]? = some b) {b' : Bucket} {s' : Roster} {user : UserId}
    (hl : (b.unregister user c).Left h.roster id c r closed b' s') (j : Nat) (id' : RoomId)
    (r' : RoomRef) : (h.withBucket i b' s').roomAt j id' = some r' ↔
      h.roomAt j id' = some r' ∧ ¬ (j = i ∧ id' = id ∧ closed = true) := by
  rw [roomAt_withBucket (lt_of_bucket hb)]
  by_cases hj : j = i
  · subst hj
    rw [if_pos rfl, roomAt_of_bucket hb, hl.lookupRoom, Bucket.lookupRoom_unregister]
    by_cases hid : id' = id ∧ closed = true
    · simp [hid]
    · rw [if_neg hid]
      simp [hid]
  · simp [hj]

theorem registered (hh : h.Coherent) (hr : h.Removed i b c channel closed h')
    (hb : h.buckets[i]? = some b) (hc : h.roster.channel? c = some channel)
    (hi : i = h.place channel.user) (j : Nat) (user : UserId) (c' : ChannelRef)
    (hu : h'.userAt j user = some c') : j = h'.place user ∧ user.isUnassigned = false ∧
      ∃ channel', h'.roster.channel? c' = some channel' ∧ channel'.user = user := by
  rw [hr.userAt hh hb hc hi] at hu
  split at hu
  next => cases hu
  next hgone =>
    obtain ⟨hj, hassigned, channel', hc', hu'⟩ := hh.registered j user c' hu
    have hne : c' ≠ c := by
      rintro rfl
      exact hgone hu
    rw [hr.place]
    refine ⟨hj, hassigned, channel', ?_, hu'⟩
    rw [hr.channel? hc, if_neg hne, hc']

/-- After a channel has left its room, registered rooms still exist and have members. -/
theorem indexed (hh : h.Coherent) (hb : h.buckets[i]? = some b)
    (hl : (b.unregister channel.user c).Left h.roster channel.room c r closed b' s')
    (hr : h.roomAt i channel.room = some r) (j : Nat) (id : RoomId) (r' : RoomRef)
    (hr' : (h.withBucket i b' s').roomAt j id = some r') :
    ∃ room, s'.room? r' = some room ∧ room.id = id ∧ room.isDropped = false ∧
      room.members ≠ [] := by
  obtain ⟨hold, hkept⟩ := (roomAt_iff hb hl j id r').mp hr'
  by_cases hrr : r' = r
  · subst hrr
    obtain ⟨rfl, rfl⟩ := hh.roomAt_unique hold hr
    have hclosed : closed = false := by
      by_contra hcl
      rw [Bool.not_eq_false] at hcl
      exact hkept ⟨rfl, rfl, hcl⟩
    obtain ⟨room, hroom, hid, hd, hmembers⟩ := hl.room_open hclosed
    refine ⟨room, hroom, hid, hd, ?_⟩
    rw [hmembers, ne_eq, ← hl.closed_iff, hclosed]
    exact Bool.false_ne_true
  · rw [hl.room?_ne r' hrr]
    exact hh.indexed j id r' hold

/-- A member that stays keeps its room registered. -/
theorem roomAt_of_ne (hh : h.Coherent) (hb : h.buckets[i]? = some b)
    (hl : (b.unregister channel.user c).Left h.roster channel.room c r closed b' s')
    (hr : h.roomAt i channel.room = some r) {channel' : Channel} {link' : Link} (hne : c' ≠ c)
    (hc' : h.roster.channel? c' = some channel') (hl' : channel'.link = some link')
    (hr' : h.roomAt j id = some link'.room) :
    (h.withBucket i b' s').roomAt j id = some link'.room := by
  refine (roomAt_iff hb hl j id link'.room).mpr ⟨hr', ?_⟩
  rintro ⟨rfl, rfl, hclosed⟩
  rw [hr] at hr'
  have hroom : r = link'.room := Option.some.inj hr'
  have hmem : c' ∈ h.roster.members r := by
    rw [hh.linked.mem_members, Roster.link?_of_channel? hc', hl', hroom]
    exact ⟨link'.slot, rfl⟩
  have hstays : c' ∈ (h.roster.members r).erase c := (List.mem_erase_of_ne hne).mpr hmem
  have hmembers : (b.unregister channel.user c).membersOf h.roster channel.room =
      h.roster.members r := by
    rw [Bucket.membersOf_unregister, Bucket.membersOf, ← roomAt_of_bucket hb, hr, Option.elim_some]
  rw [← hmembers, hl.closed_iff.mp hclosed] at hstays
  cases hstays

/-- Undoing the registration of a channel in the bucket of its user keeps a hub coherent. -/
theorem coherent (hh : h.Coherent) (hr : h.Removed i b c channel closed h')
    (hb : h.buckets[i]? = some b) (hc : h.roster.channel? c = some channel)
    (hi : i = h.place channel.user) : h'.Coherent := by
  have hchannels := hr.channel? hc
  have hplace := hr.place
  have hregistered := hr.registered hh hb hc hi
  cases hr with
  | outside hl =>
    have hrooms : ∀ j id', (h.withBucket i (b.unregister channel.user c) h.roster).roomAt j id' =
        h.roomAt j id' := by
      intro j id'
      rw [roomAt_withBucket (lt_of_bucket hb)]
      split
      next he => rw [he, roomAt_of_bucket hb, Bucket.lookupRoom_unregister]
      next => rfl
    refine hh.congr_rooms (fun _ => rfl) (fun _ => rfl) hrooms ?_ hregistered
    intro c' channel' link' hc' hl'
    rw [hplace]
    exact hh.placed c' channel' link' hc' hl'
  | @inside link _ b' s' hl hleft =>
    obtain ⟨-, -, hr⟩ := hh.placed c channel link hc hl
    rw [← hi] at hr
    refine ⟨hleft.linked, indexed hh hb hleft hr, ?_, ?_, hregistered⟩
    · intro j k id' id'' r' hr' hr''
      obtain ⟨hold, -⟩ := (roomAt_iff hb hleft j id' r').mp hr'
      obtain ⟨hold', -⟩ := (roomAt_iff hb hleft k id'' r').mp hr''
      exact hh.roomAt_inj j k id' id'' r' hold hold'
    · intro c' channel' link' hc' hl'
      rw [hchannels] at hc'
      rw [hplace]
      split at hc'
      next =>
        obtain rfl := Option.some.inj hc'
        cases hl'
      next hne =>
        obtain ⟨hj', hroom', hr'⟩ := hh.placed c' channel' link' hc' hl'
        exact ⟨hj', hroom', roomAt_of_ne hh hb hleft hr hne hc' hl' hr'⟩

/-- Undoing the registration of a channel whose teardown has begun settles it, and all others stay
settled. -/
theorem settled (hh : h.Coherent) (hr : h.Removed i b c channel closed h')
    (hb : h.buckets[i]? = some b) (hc : h.roster.channel? c = some channel)
    (hi : i = h.place channel.user) (hclosing : channel.isClosing = true)
    (hs : c' ≠ c → h.Settled c') : h'.Settled c' := by
  have hchannels := hr.channel? hc
  have husers := hr.userAt hh hb hc hi
  constructor
  · intro channel' hc'
    rw [hchannels] at hc'
    split at hc'
    next =>
      obtain rfl := Option.some.inj hc'
      simp [hclosing]
    next hne => exact (hs hne).link_iff channel' hc'
  · intro channel' hc' hclosing' j user hu
    rw [hchannels] at hc'
    rw [husers] at hu
    split at hu
    next => cases hu
    next hne' =>
      split at hc'
      next he =>
        rw [he] at hu
        exact hne' hu
      next hne => exact (hs hne).unregistered channel' hc' hclosing' j user hu

end Removed

/-! ## Sound hubs -/

namespace Sound

theorem joined (hh : h.Sound) (hj : h.Joined i b user id c h') (hb : h.buckets[i]? = some b)
    (hc : h.roster.channel? c = some channel) (hfresh : channel.isJoined = false)
    (hopen : channel.isClosing = false) (huser : user.isUnassigned = false)
    (hi : i = h.place user) : h'.Sound where
  nonempty := by
    cases hj <;> simp [withBucket, hh.nonempty]
  coherent := hj.coherent hh.coherent hb hc hfresh huser hi
  settled c' := hj.settled hh.coherent hb hc hfresh hopen huser (hh.settled c')

/-- The teardown of a channel that has not joined touches no record. -/
theorem beginClose_unjoined (hh : h.Sound) (hc : h.roster.channel? c = some channel)
    (hj : channel.isJoined = false) :
    ({ h with roster := (h.roster.beginClose c).2 } : Hub).Sound := by
  obtain ⟨hcoherent, hsettled⟩ := hh.beginClose c
  refine ⟨hh.nonempty, hcoherent, fun c' => ?_⟩
  by_cases hcc : c' = c
  · subst hcc
    have hlink := hh.coherent.link_eq_none hc hj
    constructor
    · intro channel' hc'
      rw [Roster.beginClose_snd, Roster.channel?_modifyChannel, if_pos rfl, hc] at hc'
      obtain rfl := Option.some.inj hc'
      simp [hlink]
    · intro _ _ _ j user hu
      obtain ⟨-, -, hjoined⟩ := hh.coherent.userAt_unique hc hu
      rw [hj] at hjoined
      cases hjoined
  · exact hsettled c' hcc

/-- The teardown of a channel that has joined undoes its registration. -/
theorem beginClose_remove (hh : h.Sound) (hc : h.roster.channel? c = some channel)
    (hj : channel.isJoined = true) :
    ∃ b closed h', h.buckets[h.place channel.user]? = some b ∧
      ({ h with roster := (h.roster.beginClose c).2 } : Hub).remove (h.place channel.user) c =
        (some ⟨channel.user, channel.room, closed⟩, h') ∧
      ({ h with roster := (h.roster.beginClose c).2 } : Hub).Removed (h.place channel.user) b c
        { channel with isClosing := true } closed h' ∧
      h'.Sound := by
  obtain ⟨hcoherent, hsettled⟩ := hh.beginClose c
  obtain ⟨b, hb⟩ := hh.exists_bucket channel.user
  have hc' : (h.roster.beginClose c).2.channel? c = some { channel with isClosing := true } := by
    rw [Roster.beginClose_snd, Roster.channel?_modifyChannel, if_pos rfl, hc]
    rfl
  obtain ⟨closed, h', hremove, hremoved⟩ := hcoherent.remove_joined hb hc' hj rfl
  refine ⟨b, closed, h', hb, hremove, hremoved, ?_, ?_, fun c' => ?_⟩
  · cases hremoved <;> simp [withBucket, hh.nonempty]
  · exact hremoved.coherent hcoherent hb hc' rfl
  · exact hremoved.settled hcoherent hb hc' rfl rfl (hsettled c')

end Sound

end ChatRelay.Hub
