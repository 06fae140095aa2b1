import ChatRelay.Proofs.Membership.Roster
import ChatRelay.Proofs.Membership.Seating

/-!
# Links and seats

A membership is recorded twice: the room has a seat with the channel in it, and the channel has a
link to that seat. A roster is `Linked` if the two records agree: the seats of every room are
exactly those that links name, and no link names a room that has been let go. A channel then is a
member of one room at most and has one seat there. Taking a channel without a link into a room,
taking a linked channel out, and letting an empty room go keep a roster linked; what they do to the
members of the room is what they would do to a plain list.
-/

namespace ChatRelay.Roster

/-- The link of a channel, if it has one. -/
def link? (s : Roster) (c : ChannelRef) : Option Link :=
  (s.channel? c).bind Channel.link

/-- The seats of rooms and the links of channels agree. -/
structure Linked (s : Roster) : Prop where
  seated : ∀ r room, s.room? r = some room → ∃ seats, room.HasSeats seats ∧
    ∀ seat : Room.Seat, seat ∈ seats ↔ s.link? seat.channel = some ⟨r, seat.slot⟩
  link_room : ∀ c link, s.link? c = some link → ∃ room, s.room? link.room = some room

variable {s : Roster} {c : ChannelRef} {r : RoomRef}

theorem link?_of_channel? {channel : Channel} (h : s.channel? c = some channel) :
    s.link? c = channel.link := by
  rw [link?, h]
  rfl

theorem linkedRoom?_eq (s : Roster) (c : ChannelRef) : s.linkedRoom? c =
    (s.link? c).bind fun link => (s.room? link.room).map fun room => (link.room, room) := rfl

@[simp] theorem link?_addRoom (s : Roster) (room : Room) (c : ChannelRef) :
    (s.addRoom room).2.link? c = s.link? c := rfl

/-- Changes that leave links alone. -/
theorem link?_modifyChannel_of_link {f : Channel → Channel} (hf : ∀ ch, (f ch).link = ch.link)
    (s : Roster) (c c' : ChannelRef) : (s.modifyChannel c f).link? c' = s.link? c' := by
  simp only [link?, channel?_modifyChannel]
  split
  next => cases s.channel? c' <;> simp [hf]
  next => rfl

@[simp] theorem link?_setJoined (s : Roster) (c : ChannelRef) (user : UserId) (id : RoomId)
    (c' : ChannelRef) :
    (s.modifyChannel c fun ch => ch.setJoined user id).link? c' = s.link? c' :=
  link?_modifyChannel_of_link (f := fun ch => ch.setJoined user id) (fun _ => rfl) s c c'

theorem link?_relinked {channel : Channel} (h : s.channel? c = some channel) (r : RoomRef)
    (room : Room) (link : Option Link) (c' : ChannelRef) :
    (s.relinked r room c link).link? c' = if c' = c then link else s.link? c' := by
  rw [link?, link?, channel?_relinked]
  split
  next =>
    rw [h]
    rfl
  next => rfl

/-- A channel whose link names another room, or none, stays where it is. -/
theorem remove_of_elsewhere (h : (s.link? c).map Link.room ≠ some r) : (s.remove r c).2 = s := by
  unfold Roster.remove
  cases hroom : s.room? r with
  | none => rfl
  | some room =>
    have hstays : s.unlink? r room c = none := by
      change (s.link? c).bind _ = none
      cases hl : s.link? c with
      | none => rfl
      | some link =>
        rw [hl, Option.map_some] at h
        rw [Option.bind_some, if_neg (fun he => h (congrArg some he))]
    simp only [hstays]

namespace Linked

/-- A linked roster only depends on links and rooms. -/
theorem congr (h : s.Linked) {t : Roster} (hl : ∀ c, t.link? c = s.link? c)
    (hr : ∀ r, t.room? r = s.room? r) : t.Linked where
  seated r room hroom := by
    rw [hr] at hroom
    obtain ⟨seats, hs, hmem⟩ := h.seated r room hroom
    refine ⟨seats, hs, fun seat => ?_⟩
    rw [hl, hmem]
  link_room c link hlink := by
    rw [hl] at hlink
    rw [hr]
    exact h.link_room c link hlink

theorem empty : Roster.empty.Linked where
  seated r room h := by simp [Roster.empty, room?] at h
  link_room c link h := by simp [Roster.empty, link?, channel?] at h

/-- Members are those whose link names the room. -/
theorem mem_members (h : s.Linked) : c ∈ s.members r ↔ ∃ slot, s.link? c = some ⟨r, slot⟩ := by
  constructor
  · intro hc
    cases hroom : s.room? r with
    | none => simp [members, hroom] at hc
    | some room =>
      obtain ⟨seats, hs, hmem⟩ := h.seated r room hroom
      rw [members, hroom, Option.elim_some, hs.members_eq] at hc
      obtain ⟨seat, hseat, rfl⟩ := List.mem_map.mp hc
      exact ⟨seat.slot, (hmem seat).mp hseat⟩
  · rintro ⟨slot, hlink⟩
    obtain ⟨room, hroom⟩ := h.link_room c _ hlink
    obtain ⟨seats, hs, hmem⟩ := h.seated r room hroom
    rw [members, hroom, Option.elim_some, hs.members_eq]
    exact List.mem_map.mpr ⟨⟨slot, c⟩, (hmem ⟨slot, c⟩).mpr hlink, rfl⟩

/-- No channel is listed twice. -/
theorem nodup_members (h : s.Linked) (r : RoomRef) : (s.members r).Nodup := by
  cases hroom : s.room? r with
  | none => simp [members, hroom]
  | some room =>
    obtain ⟨seats, hs, hmem⟩ := h.seated r room hroom
    rw [members, hroom, Option.elim_some, hs.members_eq]
    refine (List.Nodup.of_map _ hs.nodup).map_on ?_
    intro seat hseat seat' hseat' hc
    have hlink := (hmem seat).mp hseat
    have hlink' := (hmem seat').mp hseat'
    rw [hc, hlink'] at hlink
    have hslot : seat'.slot = seat.slot := congrArg Link.slot (Option.some.inj hlink)
    cases seat
    cases seat'
    simp_all

/-- A retired room has no members. -/
theorem members_of_dropped (h : s.Linked) {room : Room} (hroom : s.room? r = some room)
    (hd : room.isDropped = true) : s.members r = [] := by
  obtain ⟨seats, hs, -⟩ := h.seated r room hroom
  rw [members, hroom, Option.elim_some, hs.members_eq, hs.retired hd, List.map_nil]

/-- A room with new seats and a channel with a new link fit together if the seats are those that
links name afterwards, and the channel was and is in no other room. -/
theorem relinked (h : s.Linked) {room room' : Room} {channel : Channel} {seats : List Room.Seat}
    {link : Option Link} (hroom : s.room? r = some room) (hc : s.channel? c = some channel)
    (hs : room'.HasSeats seats)
    (hmem : ∀ seat : Room.Seat, seat ∈ seats ↔
      (if seat.channel = c then link else s.link? seat.channel) = some ⟨r, seat.slot⟩)
    (hold : ∀ l, s.link? c = some l → l.room = r) (hnew : ∀ l, link = some l → l.room = r) :
    (s.relinked r room' c link).Linked := by
  have hlinks := link?_relinked hc r room' link
  have hrooms := room?_relinked hroom room' c link
  constructor
  · intro r' room'' hr'
    rw [hrooms] at hr'
    split at hr'
    next he =>
      subst he
      obtain rfl := Option.some.inj hr'
      refine ⟨seats, hs, fun seat => ?_⟩
      rw [hmem, hlinks]
    next hne =>
      obtain ⟨seats', hs', hmem'⟩ := h.seated r' room'' hr'
      refine ⟨seats', hs', fun seat => ?_⟩
      rw [hmem', hlinks]
      split
      next hsc =>
        -- Neither the old nor the new link of the channel names another room.
        rw [hsc]
        constructor
        · intro hl
          exact absurd (hold _ hl) hne
        · intro hl
          exact absurd (hnew _ hl) hne
      next => rfl
  · intro c' l hl
    rw [hlinks] at hl
    rw [hrooms]
    split at hl
    next =>
      rw [if_pos (hnew l hl)]
      exact ⟨room', rfl⟩
    next =>
      split
      next => exact ⟨room', rfl⟩
      next => exact h.link_room c' l hl

/-! ## Taking a channel in -/

/-- A room that is not retired takes a channel in that has no link. -/
theorem put (h : s.Linked) {room : Room} {channel : Channel} (hroom : s.room? r = some room)
    (hd : room.isDropped = false) (hc : s.channel? c = some channel) (hlink : channel.link = none) :
    ∃ slot room', s.put r c = .ok (s.relinked r room' c (some ⟨r, slot⟩)) ∧
      (s.relinked r room' c (some ⟨r, slot⟩)).Linked ∧
      room'.id = room.id ∧ room'.isDropped = false ∧ room'.members = c :: room.members := by
  obtain ⟨seats, hs, hmem⟩ := h.seated r room hroom
  obtain ⟨slot, room', hput, hs', hid, hd'⟩ := hs.put hd c
  have hnone : s.link? c = none := by rw [link?_of_channel? hc, hlink]
  have hfresh : ∀ seat ∈ seats, seat.channel ≠ c := by
    intro seat hseat he
    have hlink := (hmem seat).mp hseat
    rw [he, hnone] at hlink
    cases hlink
  have hmem' : ∀ seat : Room.Seat, seat ∈ ⟨slot, c⟩ :: seats ↔
      (if seat.channel = c then some ⟨r, slot⟩ else s.link? seat.channel) =
        some ⟨r, seat.slot⟩ := by
    intro seat
    rw [List.mem_cons]
    by_cases hsc : seat.channel = c
    · rw [if_pos hsc]
      constructor
      · rintro (rfl | hseat)
        · rfl
        · exact absurd hsc (hfresh seat hseat)
      · intro he
        left
        cases seat
        simp_all
    · rw [if_neg hsc, ← hmem]
      have hne : seat ≠ ⟨slot, c⟩ := fun he => hsc (congrArg Room.Seat.channel he)
      rw [or_iff_right hne]
  have hold : ∀ l, s.link? c = some l → l.room = r := by
    intro l hl
    rw [hnone] at hl
    cases hl
  have hnew : ∀ l, some (⟨r, slot⟩ : Link) = some l → l.room = r := by
    rintro _ ⟨⟩
    rfl
  refine ⟨slot, room', ?_, h.relinked hroom hc hs' hmem' hold hnew, hid, hd', ?_⟩
  · simp only [Roster.put, hroom, hput, Roster.relinked]
  · rw [hs'.members_eq, hs.members_eq]
    rfl

/-! ## Taking a channel out -/

/-- A channel leaves the room that its link names. The room is retired if nobody is left. -/
theorem remove (h : s.Linked) {slot : Nat} (hlink : s.link? c = some ⟨r, slot⟩) :
    ∃ room room', s.room? r = some room ∧
      s.remove r c = (room'.isDropped, s.relinked r room' c none) ∧
      (s.relinked r room' c none).Linked ∧
      room'.id = room.id ∧ (room'.isDropped = true ↔ room'.members = []) ∧
      room'.members = room.members.erase c := by
  obtain ⟨channel, hc, hcl⟩ := Option.bind_eq_some_iff.mp hlink
  obtain ⟨room, hroom⟩ := h.link_room c _ hlink
  obtain ⟨seats, hs, hmem⟩ := h.seated r room hroom
  obtain ⟨front, back, rfl⟩ := List.append_of_mem ((hmem ⟨slot, c⟩).mpr hlink)
  obtain ⟨room', hunlink, hs', hid, hd⟩ := hs.unlink?
  have hremove : s.remove r c = (room'.isDropped, s.relinked r room' c none) := by
    have hleft : s.unlink? r room c = some room' := by
      simp only [Roster.unlink?, hc, Option.bind_some, hcl, if_true, hunlink]
    simp only [Roster.remove, hroom, hleft, Roster.relinked]
  have hsplit : ∀ seat : Room.Seat, seat ∈ front ++ ⟨slot, c⟩ :: back ↔
      seat = ⟨slot, c⟩ ∨ seat ∈ front ++ back := by
    intro seat
    simp only [List.mem_append, List.mem_cons]
    tauto
  have hfresh : ∀ seat ∈ front ++ back, seat.channel ≠ c := by
    intro seat hseat he
    have hseated := (hmem seat).mp ((hsplit seat).mpr (.inr hseat))
    rw [he, hlink] at hseated
    have hslot : slot = seat.slot := congrArg Link.slot (Option.some.inj hseated)
    have hnd := hs.nodup
    rw [List.map_append, List.map_cons, List.nodup_middle, List.nodup_cons,
      ← List.map_append] at hnd
    exact hnd.1 (List.mem_map.mpr ⟨seat, hseat, hslot.symm⟩)
  have hmem' : ∀ seat : Room.Seat, seat ∈ front ++ back ↔
      (if seat.channel = c then none else s.link? seat.channel) = some ⟨r, seat.slot⟩ := by
    intro seat
    by_cases hsc : seat.channel = c
    · rw [if_pos hsc]
      constructor
      · intro hseat
        exact absurd hsc (hfresh seat hseat)
      · intro he
        cases he
    · have hne : seat ≠ ⟨slot, c⟩ := fun he => hsc (congrArg Room.Seat.channel he)
      rw [if_neg hsc, ← hmem, hsplit, or_iff_right hne]
  have hold : ∀ l, s.link? c = some l → l.room = r := by
    intro l hl
    rw [hlink] at hl
    obtain rfl := Option.some.inj hl
    rfl
  have hnew : ∀ l : Link, none = some l → l.room = r := by
    intro l hl
    cases hl
  refine ⟨room, room', hroom, hremove, h.relinked hroom hc hs' hmem' hold hnew, hid, ?_, ?_⟩
  · rw [hd, hs'.members_eq, List.map_eq_nil_iff]
  · have hnotMem : c ∉ front.map Room.Seat.channel := by
      intro hc'
      obtain ⟨seat, hseat, he⟩ := List.mem_map.mp hc'
      exact hfresh seat (List.mem_append_left _ hseat) he
    rw [hs'.members_eq, hs.members_eq, List.map_append, List.map_append, List.map_cons,
      List.erase_append_right _ hnotMem, List.erase_cons_head]

/-! ## Opening and letting go -/

theorem addRoom (h : s.Linked) (id : RoomId) : (s.addRoom (.new id)).2.Linked where
  seated r room hr := by
    rw [room?_addRoom] at hr
    split at hr
    next he =>
      obtain rfl := Option.some.inj hr
      -- A link to the new room would have to name a room that was there before.
      have hnone : ∀ seat : Room.Seat, s.link? seat.channel ≠ some ⟨r, seat.slot⟩ := by
        intro seat hl
        obtain ⟨room, hroom⟩ := h.link_room _ _ hl
        simp only [he, room?_addRoom_fst, reduceCtorEq] at hroom
      refine ⟨[], Room.HasSeats.new id, fun seat => ?_⟩
      rw [link?_addRoom, iff_false_right (hnone seat)]
      exact List.not_mem_nil
    next => exact h.seated r room hr
  link_room c link hl := by
    obtain ⟨room, hroom⟩ := h.link_room c link hl
    rw [room?_addRoom]
    split
    next => exact ⟨_, rfl⟩
    next => exact ⟨room, hroom⟩

/-- A room without members can be let go. -/
theorem release (h : s.Linked) (hr : s.members r = []) : (s.release r).Linked where
  seated r' room hr' := by
    rw [room?_release] at hr'
    split at hr'
    next => cases hr'
    next => exact h.seated r' room hr'
  link_room c link hl := by
    rw [room?_release, if_neg]
    · exact h.link_room c link hl
    · rintro rfl
      have hc : c ∈ s.members link.room := h.mem_members.mpr ⟨link.slot, hl⟩
      rw [hr] at hc
      cases hc

end Linked

end ChatRelay.Roster
