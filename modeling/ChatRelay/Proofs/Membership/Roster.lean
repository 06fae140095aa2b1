import ChatRelay.Membership.Roster
import ChatRelay.Proofs.Membership.Seating

/-!
# What the roster's operations do to channels and rooms

A roster is judged by two look-ups, `channel?` and `room?`. Each operation that changes it has one
lemma for each of them. Operations on mailboxes are all instances of `mapMail`, which changes every
channel's mailbox by a rule and nothing else: an offer to one channel, an offer to a room, a
writer that takes messages out or goes away.
-/

namespace ChatRelay

namespace Roster

variable {s : Roster} {c c' : ChannelRef} {r r' : RoomRef}

theorem ext_channels {t : Roster} (hc : ∀ c, t.channel? c = s.channel? c)
    (hr : t.rooms = s.rooms) : t = s := by
  cases s
  cases t
  simp only [mk.injEq]
  exact ⟨List.ext_getElem? fun i => hc ⟨i⟩, hr⟩

/-! ## Look-ups -/

@[simp] theorem channel?_modifyChannel (s : Roster) (c c' : ChannelRef) (f : Channel → Channel) :
    (s.modifyChannel c f).channel? c' =
      if c' = c then (s.channel? c').map f else s.channel? c' := by
  obtain ⟨i⟩ := c
  obtain ⟨j⟩ := c'
  simp only [channel?, modifyChannel, List.getElem?_modify, ChannelRef.mk.injEq]
  by_cases h : i = j
  · simp [h]
  · simp [h, Ne.symm h]

@[simp] theorem room?_modifyChannel (s : Roster) (c : ChannelRef) (f : Channel → Channel)
    (r : RoomRef) : (s.modifyChannel c f).room? r = s.room? r := rfl

@[simp] theorem channel?_setRoom (s : Roster) (r : RoomRef) (room : Room) (c : ChannelRef) :
    (s.setRoom r room).channel? c = s.channel? c := rfl

@[simp] theorem channel?_release (s : Roster) (r : RoomRef) (c : ChannelRef) :
    (s.release r).channel? c = s.channel? c := rfl

@[simp] theorem channel?_addRoom (s : Roster) (room : Room) (c : ChannelRef) :
    (s.addRoom room).2.channel? c = s.channel? c := rfl

@[simp] theorem room?_addChannel (s : Roster) (channel : Channel) (r : RoomRef) :
    (s.addChannel channel).2.room? r = s.room? r := rfl

theorem channel?_addChannel (s : Roster) (channel : Channel) (c : ChannelRef) :
    (s.addChannel channel).2.channel? c =
      if c = (s.addChannel channel).1 then some channel else s.channel? c := by
  obtain ⟨i⟩ := c
  simp only [channel?, addChannel, ChannelRef.mk.injEq]
  exact getElem?_append_singleton s.channels channel i

/-- A new channel takes a name that no channel has had. -/
theorem channel?_addChannel_fst (s : Roster) (channel : Channel) :
    s.channel? (s.addChannel channel).1 = none := by
  simp [channel?, addChannel]

/-- A name that no room has had yet names none. -/
theorem room?_eq_none_of_length_le (h : s.rooms.length ≤ r.index) : s.room? r = none := by
  rw [room?, List.getElem?_eq_none h]
  rfl

theorem lt_length_of_room? {room : Room} (h : s.room? r = some room) :
    r.index < s.rooms.length := by
  by_contra hl
  rw [room?_eq_none_of_length_le (Nat.le_of_not_lt hl)] at h
  cases h

theorem room?_setRoom {old : Room} (h : s.room? r = some old) (room : Room) (r' : RoomRef) :
    (s.setRoom r room).room? r' = if r' = r then some room else s.room? r' := by
  have hlt := lt_length_of_room? h
  obtain ⟨i⟩ := r
  obtain ⟨j⟩ := r'
  simp only [room?, setRoom, List.getElem?_set, RoomRef.mk.injEq]
  by_cases he : i = j
  · subst he
    simp [hlt]
  · simp [he, Ne.symm he]

theorem room?_release (s : Roster) (r r' : RoomRef) :
    (s.release r).room? r' = if r' = r then none else s.room? r' := by
  obtain ⟨i⟩ := r
  obtain ⟨j⟩ := r'
  simp only [room?, release, List.getElem?_set, RoomRef.mk.injEq]
  by_cases he : i = j
  · subst he
    by_cases hl : i < s.rooms.length
    · simp [hl]
    · simp [hl]
  · simp [he, Ne.symm he]

theorem room?_addRoom (s : Roster) (room : Room) (r : RoomRef) :
    (s.addRoom room).2.room? r =
      if r = (s.addRoom room).1 then some room else s.room? r := by
  obtain ⟨i⟩ := r
  simp only [room?, addRoom, RoomRef.mk.injEq]
  rw [getElem?_append_singleton]
  split <;> rfl

/-- A new room takes a name that no room has had. -/
theorem room?_addRoom_fst (s : Roster) (room : Room) : s.room? (s.addRoom room).1 = none := by
  simp [room?, addRoom]

/-- Let a room go, if there is one to let go. -/
def releaseAny (s : Roster) (old : Option RoomRef) : Roster :=
  old.elim s s.release

theorem room?_releaseAny (s : Roster) (old : Option RoomRef) (r : RoomRef) :
    (s.releaseAny old).room? r = if old = some r then none else s.room? r := by
  cases old with
  | none => rfl
  | some r' =>
    rw [releaseAny, Option.elim_some, room?_release]
    simp [eq_comm]

theorem channel?_releaseAny (s : Roster) (old : Option RoomRef) (c : ChannelRef) :
    (s.releaseAny old).channel? c = s.channel? c := by
  cases old <;> rfl

theorem length_rooms_releaseAny (s : Roster) (old : Option RoomRef) :
    (s.releaseAny old).rooms.length = s.rooms.length := by
  cases old with
  | none => rfl
  | some r => exact List.length_set

/-- Replace a room, and set the link of a channel. -/
def relinked (s : Roster) (r : RoomRef) (room : Room) (c : ChannelRef) (link : Option Link) :
    Roster :=
  (s.setRoom r room).modifyChannel c fun ch => { ch with link }

theorem channel?_relinked (s : Roster) (r : RoomRef) (room : Room) (c : ChannelRef)
    (link : Option Link) (c' : ChannelRef) : (s.relinked r room c link).channel? c' =
      if c' = c then (s.channel? c).map fun ch => { ch with link } else s.channel? c' := by
  rw [relinked, channel?_modifyChannel, channel?_setRoom]
  split
  next hc => rw [hc]
  next => rfl

theorem room?_relinked {old : Room} (h : s.room? r = some old) (room : Room) (c : ChannelRef)
    (link : Option Link) (r' : RoomRef) :
    (s.relinked r room c link).room? r' = if r' = r then some room else s.room? r' := by
  rw [relinked, room?_modifyChannel, room?_setRoom h]

@[simp] theorem length_rooms_relinked (s : Roster) (r : RoomRef) (room : Room) (c : ChannelRef)
    (link : Option Link) : (s.relinked r room c link).rooms.length = s.rooms.length :=
  List.length_set

/-! ## What channels carry -/

/-- A change of a channel does not show in what it leaves as it is. -/
theorem map_channel?_modifyChannel {α : Type} {g : Channel → α} {f : Channel → Channel}
    (hf : ∀ ch, g (f ch) = g ch) (s : Roster) (c c' : ChannelRef) :
    ((s.modifyChannel c f).channel? c').map g = (s.channel? c').map g := by
  rw [channel?_modifyChannel]
  split
  next => cases s.channel? c' <;> simp [hf]
  next => rfl

/-- What a channel carries besides its link. -/
def carried? (s : Roster) (c : ChannelRef) : Option Channel :=
  (s.channel? c).map fun ch => { ch with link := none }

theorem carried?_of_channel? {channel : Channel} (h : s.channel? c = some channel) :
    s.carried? c = some { channel with link := none } := by
  rw [carried?, h, Option.map_some]

/-- Whatever does not depend on links can be read off what channels carry. -/
theorem map_carried? {α : Type} {g : Channel → α} (hg : ∀ ch link, g { ch with link } = g ch)
    (s : Roster) (c : ChannelRef) : (s.carried? c).map g = (s.channel? c).map g := by
  rw [carried?]
  cases s.channel? c <;> simp [hg]

theorem carried?_relinked (s : Roster) (r : RoomRef) (room : Room) (c : ChannelRef)
    (link : Option Link) (c' : ChannelRef) :
    (s.relinked r room c link).carried? c' = s.carried? c' := by
  have hlink : ∀ ch : Channel, ({ { ch with link } with link := none } : Channel) =
      { ch with link := none } := fun _ => rfl
  exact map_channel?_modifyChannel (g := fun ch => ({ ch with link := none } : Channel)) hlink
    (s.setRoom r room) c c'

theorem carried?_put {s' : Roster} (h : s.put r c = .ok s') (c' : ChannelRef) :
    s'.carried? c' = s.carried? c' := by
  unfold put at h
  split at h
  next => exact Except.ok.inj h ▸ rfl
  next =>
    split at h
    next => cases h
    next =>
      rw [← Except.ok.inj h]
      exact carried?_relinked ..

theorem carried?_remove (s : Roster) (r : RoomRef) (c c' : ChannelRef) :
    (s.remove r c).2.carried? c' = s.carried? c' := by
  unfold remove
  split
  next => rfl
  next =>
    split
    next => rfl
    next => exact carried?_relinked ..

/-! ## Refusals and teardowns -/

/-- A retired room takes nobody in. -/
theorem put_of_dropped {room : Room} (h : s.room? r = some room) (hd : room.isDropped = true)
    (c : ChannelRef) : s.put r c = .error (.dropped room.id) := by
  simp only [put, h, Room.put, hd, if_true]

theorem setChannel_eq_modifyChannel {channel : Channel} (h : s.channel? c = some channel)
    (f : Channel → Channel) : s.setChannel c (f channel) = s.modifyChannel c f := by
  refine ext_channels (fun c' => ?_) rfl
  rw [channel?_modifyChannel]
  obtain ⟨i⟩ := c
  obtain ⟨j⟩ := c'
  simp only [channel?, setChannel, List.getElem?_set, ChannelRef.mk.injEq] at h ⊢
  by_cases he : i = j
  · subst he
    obtain ⟨hl, rfl⟩ := List.getElem?_eq_some_iff.mp h
    simp [hl]
  · simp [he, Ne.symm he]

theorem modifyChannel_of_none (h : s.channel? c = none) (f : Channel → Channel) :
    s.modifyChannel c f = s := by
  refine ext_channels (fun c' => ?_) rfl
  rw [channel?_modifyChannel]
  split
  next he =>
    rw [he, h]
    rfl
  next => rfl

theorem beginClose_snd (s : Roster) (c : ChannelRef) :
    (s.beginClose c).2 = s.modifyChannel c fun ch => { ch with isClosing := true } := by
  unfold beginClose
  split
  next h => exact (modifyChannel_of_none h _).symm
  next ch h => exact setChannel_eq_modifyChannel h fun ch => { ch with isClosing := true }

theorem beginClose_fst {channel : Channel} (h : s.channel? c = some channel) :
    (s.beginClose c).1 = !channel.isClosing := by
  simp only [beginClose, h, Channel.beginClose]

/-! ## Changes to mailboxes -/

/-- Change the mailbox of every channel by a rule. -/
def mapMail (s : Roster) (f : ChannelRef → Mailbox → Mailbox) : Roster :=
  { s with channels := s.channels.mapIdx fun i ch => { ch with mailbox := f ⟨i⟩ ch.mailbox } }

@[simp] theorem channel?_mapMail (s : Roster) (f : ChannelRef → Mailbox → Mailbox)
    (c : ChannelRef) :
    (s.mapMail f).channel? c =
      (s.channel? c).map fun ch => { ch with mailbox := f c ch.mailbox } := by
  simp [channel?, mapMail]

@[simp] theorem room?_mapMail (s : Roster) (f : ChannelRef → Mailbox → Mailbox) (r : RoomRef) :
    (s.mapMail f).room? r = s.room? r := rfl

theorem mapMail_mapMail (s : Roster) (f g : ChannelRef → Mailbox → Mailbox) :
    (s.mapMail f).mapMail g = s.mapMail fun c m => g c (f c m) := by
  refine ext_channels (fun c => ?_) rfl
  simp only [channel?_mapMail, Option.map_map]
  rfl

theorem mapMail_id (s : Roster) : (s.mapMail fun _ m => m) = s := by
  refine ext_channels (fun c => ?_) rfl
  rw [channel?_mapMail]
  exact Option.map_id' ..

/-- The rule that changes the mailbox of one channel. -/
def mailOf (c : ChannelRef) (f : Mailbox → Mailbox) (c' : ChannelRef) (m : Mailbox) : Mailbox :=
  if c' = c then f m else m

theorem modifyChannel_mailbox (s : Roster) (c : ChannelRef) (f : Mailbox → Mailbox) :
    (s.modifyChannel c fun ch => { ch with mailbox := f ch.mailbox }) = s.mapMail (mailOf c f) := by
  refine ext_channels (fun c' => ?_) rfl
  rw [channel?_modifyChannel, channel?_mapMail]
  unfold mailOf
  split
  next => rfl
  next => exact (Option.map_id' ..).symm

theorem closeMailbox_eq (s : Roster) (c : ChannelRef) :
    s.closeMailbox c = s.mapMail (mailOf c Mailbox.close) :=
  modifyChannel_mailbox s c Mailbox.close

theorem push_snd (s : Roster) (c : ChannelRef) (msg : Msg) :
    (s.push c msg).2 = s.mapMail (mailOf c fun m => (m.offer msg).2) := by
  rw [← modifyChannel_mailbox]
  unfold push
  split
  next h => exact (modifyChannel_of_none h _).symm
  next ch h =>
    exact setChannel_eq_modifyChannel h fun ch => { ch with mailbox := (ch.mailbox.offer msg).2 }

theorem push_fst {channel : Channel} (h : s.channel? c = some channel) (msg : Msg) :
    (s.push c msg).1 = (channel.mailbox.offer msg).1 := by
  simp only [push, h, Channel.push]

theorem takeMail_snd (s : Roster) (c : ChannelRef) (n : Nat) :
    (s.takeMail c n).2 = s.mapMail (mailOf c fun m => (m.take n).2) := by
  rw [← modifyChannel_mailbox]
  unfold takeMail
  split
  next h => exact (modifyChannel_of_none h _).symm
  next ch h =>
    exact setChannel_eq_modifyChannel h fun ch => { ch with mailbox := (ch.mailbox.take n).2 }

/-! ## Offers to a room -/

/-- The rule of an offer to each of a list of channels. -/
def offerTo (cs : List ChannelRef) (msg : Msg) (c : ChannelRef) (m : Mailbox) : Mailbox :=
  if c ∈ cs then (m.offer msg).2 else m

/-- Where no channel is named twice, each is offered the message once. -/
theorem pushAll_snd {cs : List ChannelRef} (hnd : cs.Nodup) (s : Roster) (msg : Msg) :
    (s.pushAll msg cs).2 = s.mapMail (offerTo cs msg) := by
  induction cs generalizing s with
  | nil =>
    simp only [pushAll]
    exact (mapMail_id s).symm
  | cons c cs ih =>
    rw [List.nodup_cons] at hnd
    simp only [pushAll]
    rw [ih hnd.2, push_snd, mapMail_mapMail]
    congr 1
    funext c' m
    unfold offerTo mailOf
    by_cases hc : c' = c
    · subst hc
      simp [hnd.1]
    · simp [hc]

/-- The members of a room, latest first; a room that has been let go has none. -/
def members (s : Roster) (r : RoomRef) : List ChannelRef :=
  (s.room? r).elim [] Room.members

theorem broadcast_snd (hnd : (s.members r).Nodup) (msg : Msg) :
    (s.broadcast r msg).2 = s.mapMail (offerTo (s.members r) msg) := by
  unfold broadcast members at *
  cases hr : s.room? r with
  | none => exact (mapMail_id s).symm
  | some room =>
    rw [hr] at hnd
    exact pushAll_snd hnd s msg

end Roster

end ChatRelay
