import ChatRelay.Proofs.Membership.PlainLists
import Mathlib.Data.List.Infix
import Mathlib.Order.Bounds.Defs

/-!
# Slots are used again

A room adds a slot only if none is vacant, so that it never has more slots than it once had members.
Occupied and vacant slots are all slots (`Room.HasSeats.length_nodes`). Taking a channel in fills a
vacant slot, or adds one and has then as many members as slots (`Room.HasSeats.length_nodes_put`);
giving a seat up leaves the number of slots as it is. The number of slots is therefore the greatest
number of members that the room has had since it was opened (`slots_recycled`), and no link names a
slot beyond it.
-/

namespace ChatRelay

namespace Room

variable {r r' : Room} {c : ChannelRef} {slot : Nat} {seats seats' : List Seat}

/-- Every slot is either a seat or vacant. -/
theorem HasSeats.length_nodes (h : r.HasSeats seats) :
    r.nodes.length = r.online + r.free.length := by
  have hnodup : (seats.map Seat.slot ++ r.free).Nodup := by
    refine List.nodup_append.mpr ⟨h.nodup, h.free_nodup, ?_⟩
    rintro k hk _ hfree rfl
    rw [h.mem_slots_iff, ((h.mem_free k).mp hfree).2] at hk
    cases hk
  have hall : (seats.map Seat.slot ++ r.free).Perm (List.range r.nodes.length) := by
    refine (List.perm_ext_iff_of_nodup hnodup List.nodup_range).mpr fun k => ?_
    rw [List.mem_append, h.mem_slots_iff, h.mem_free, List.mem_range]
    cases hn : node? r.nodes k with
    | none => simp
    | some node => simpa using lt_length_of_node? hn
  have hlength := hall.length_eq
  rw [List.length_append, List.length_map, List.length_range] at hlength
  rw [← hlength, h.online]

/-- A slot is added only if the others are all occupied; then the new member's makes them all. -/
theorem HasSeats.length_nodes_put (h' : r'.HasSeats seats') (hput : r.put c = .ok (slot, r')) :
    r.nodes.length ≤ r'.nodes.length ∧
      (r'.nodes.length = r.nodes.length ∨ r'.nodes.length = r'.online) := by
  have hslots := h'.length_nodes
  unfold Room.put at hput
  split at hput
  · cases hput
  cases hfree : r.free with
  | nil =>
    simp only [Room.alloc, hfree] at hput
    cases hput
    simp only [List.length_nil, Nat.add_zero] at hslots
    refine ⟨?_, .inr hslots⟩
    rw [length_modifyNode, List.length_append]
    exact Nat.le_add_right ..
  | cons vacant free =>
    simp only [Room.alloc, hfree] at hput
    cases hput
    rw [length_modifyNode, List.length_set]
    exact ⟨Nat.le_refl _, .inl rfl⟩

/-- A slot that is vacated is kept. -/
theorem length_nodes_unlink? (h : r.unlink? slot c = some r') :
    r'.nodes.length = r.nodes.length := by
  unfold Room.unlink? at h
  split at h
  · cases h
  · split at h <;> cases h
    rw [length_modifyNode, length_modifyNode, List.length_set]

/-- The room has taken a channel in, or a seat in it was given up. -/
inductive Moves (r : Room) : Room → Prop
  | put {c : ChannelRef} {slot : Nat} {r' : Room} : r.put c = .ok (slot, r') → Moves r r'
  | unlink {c : ChannelRef} {slot : Nat} {r' : Room} : r.unlink? slot c = some r' → Moves r r'

/-- The number of slots grows to the number of members, if at all. -/
theorem Moves.length_nodes (h : r.Moves r') (h' : r'.HasSeats seats') :
    r.nodes.length ≤ r'.nodes.length ∧
      (r'.nodes.length = r.nodes.length ∨ r'.nodes.length = r'.online) := by
  cases h with
  | put hput => exact h'.length_nodes_put hput
  | unlink hunlink =>
    have hlength := length_nodes_unlink? hunlink
    exact ⟨Nat.le_of_eq hlength.symm, .inl hlength⟩

end Room

namespace Roster

variable {s s₀ : Roster} {r : RoomRef} {room room' : Room} {ops : List Op} {op : Op}

/-- A call changes one room at most. -/
theorem act_snd_cases (s : Roster) (op : Op) : (s.act op).2 = s ∨
    ∃ r room room' c link, s.room? r = some room ∧ room.Moves room' ∧
      (s.act op).2 = s.relinked r room' c link := by
  cases op with
  | put r c =>
    simp only [act, Roster.put]
    cases hroom : s.room? r with
    | none => exact .inl rfl
    | some room =>
      cases hput : room.put c with
      | error e => simp only [hput, true_or]
      | ok taken =>
        simp only [hput]
        exact .inr ⟨r, room, _, c, _, hroom, .put hput, rfl⟩
  | remove r c =>
    simp only [act, Roster.remove]
    cases hroom : s.room? r with
    | none => exact .inl rfl
    | some room =>
      cases hunlink : s.unlink? r room c with
      | none => simp only [hunlink, true_or]
      | some left =>
        simp only [hunlink]
        obtain ⟨link, -, hleft⟩ := Option.bind_eq_some_iff.mp hunlink
        obtain ⟨-, hleft⟩ := Option.ite_none_right_eq_some.mp hleft
        exact .inr ⟨r, room, _, c, _, hroom, .unlink hleft, rfl⟩

theorem room?_act (h : (s.act op).2.room? r = some room') :
    ∃ room, s.room? r = some room ∧ (room' = room ∨ room.Moves room') := by
  obtain hsame | ⟨r₁, old, new, c, link, hold, hmoves, hnew⟩ := act_snd_cases s op
  · exact ⟨room', hsame ▸ h, .inl rfl⟩
  · rw [hnew, room?_relinked hold] at h
    split at h
    next he =>
      cases h
      exact ⟨old, he ▸ hold, .inr hmoves⟩
    next => exact ⟨room', h, .inl rfl⟩

/-- The numbers of members that a room has had before, between and after calls. -/
def memberCounts (s₀ : Roster) (ops : List Op) (r : RoomRef) : Set Nat :=
  {n | ∃ past room, past <+: ops ∧ (History.reached act s₀ past).room? r = some room ∧
    room.online = n}

theorem mem_memberCounts_concat (hroom : (History.reached act s₀ (ops ++ [op])).room? r = some room)
    (n : Nat) : n ∈ memberCounts s₀ (ops ++ [op]) r ↔
      n ∈ memberCounts s₀ ops r ∨ n = room.online := by
  constructor
  · rintro ⟨past, room', hpast, hroom', rfl⟩
    obtain rfl | hpast := List.prefix_concat_iff.mp hpast
    · rw [hroom] at hroom'
      cases hroom'
      exact .inr rfl
    · exact .inl ⟨past, room', hpast, hroom', rfl⟩
  · rintro (⟨past, room', hpast, hroom', rfl⟩ | rfl)
    · exact ⟨past, room', hpast.trans (List.prefix_append _ _), hroom', rfl⟩
    · exact ⟨_, room, List.prefix_refl _, hroom, rfl⟩

/-- **A run.** A room has as many slots as it had members when it had most. -/
theorem isGreatest_memberCounts (hs : s₀.Unused) (hops : ∀ op ∈ ops, op.Fits s₀)
    (hroom : (History.reached act s₀ ops).room? r = some room) :
    IsGreatest (memberCounts s₀ ops r) room.nodes.length := by
  induction ops using List.reverseRecOn generalizing room with
  | nil =>
    rw [hs.rooms r room hroom]
    refine ⟨⟨[], room, List.prefix_refl _, hroom, ?_⟩, ?_⟩
    · rw [hs.rooms r room hroom]
      rfl
    · rintro _ ⟨past, room', hpast, hroom', rfl⟩
      cases List.prefix_nil.mp hpast
      rw [hs.rooms r room' hroom']
      exact Nat.le_refl 0
  | append_singleton ops op ih =>
    obtain ⟨seats, hseats, -⟩ := (told_reached hs hops).aligned r room hroom
    have hpast := hroom
    rw [History.reached_append] at hpast
    obtain ⟨old, hold, hmoves⟩ := room?_act hpast
    obtain ⟨⟨past, before, hprefix, hbefore, hpeak⟩, hbound⟩ :=
      ih (fun op hop => hops op (List.mem_append_left _ hop)) hold
    have hgrows : old.nodes.length ≤ room.nodes.length ∧
        (room.nodes.length = old.nodes.length ∨ room.nodes.length = room.online) := by
      obtain rfl | hmoves := hmoves
      · exact ⟨Nat.le_refl _, .inl rfl⟩
      · exact hmoves.length_nodes hseats
    constructor
    · rw [mem_memberCounts_concat hroom]
      obtain hsame | hfull := hgrows.2
      · exact .inl ⟨past, before, hprefix, hbefore, hpeak.trans hsame.symm⟩
      · exact .inr hfull
    · intro n hn
      obtain hn | rfl := (mem_memberCounts_concat hroom n).mp hn
      · exact (hbound hn).trans hgrows.1
      · rw [hseats.length_nodes]
        exact Nat.le_add_right ..

/-- Whatever channels have been put into rooms and taken out of them: a room has as many slots as it
had members when it had most, each of them is occupied or vacant, and links name slots that there
are. -/
theorem slots_recycled (hs : s₀.Unused) (ops : List Op) (hops : ∀ op ∈ ops, op.Fits s₀)
    {r : RoomRef} {room : Room} (hroom : (History.reached act s₀ ops).room? r = some room) :
    IsGreatest (memberCounts s₀ ops r) room.nodes.length ∧
      room.nodes.length = room.online + room.free.length ∧
      ∀ c slot, (History.reached act s₀ ops).link? c = some ⟨r, slot⟩ →
        slot < room.nodes.length := by
  obtain ⟨seats, hseats, hlinks⟩ := (told_reached hs hops).aligned r room hroom
  refine ⟨isGreatest_memberCounts hs hops hroom, hseats.length_nodes, fun c slot hlink => ?_⟩
  exact hseats.slot_lt (List.mem_of_find?_eq_some (hlinks c slot hlink))

/-- Two channels are in a room, one of them leaves and a third one comes: the slot that was vacated
is used again, and a room of three members at different times has two slots. -/
theorem slots_recycled_after_leaving :
    let s₀ : Roster := ⟨[.new 1 8, .new 2 8, .new 3 8], [some (.new ⟨7⟩)]⟩
    let ops : List Op := [.put ⟨0⟩ ⟨0⟩, .put ⟨0⟩ ⟨1⟩, .remove ⟨0⟩ ⟨0⟩, .put ⟨0⟩ ⟨2⟩]
    s₀.Unused ∧ (∀ op ∈ ops, op.Fits s₀) ∧
      ∃ room, (History.reached act s₀ ops).room? ⟨0⟩ = some room ∧
        IsGreatest (memberCounts s₀ ops ⟨0⟩) 2 ∧ room.online = 2 ∧ room.free = [] := by
  intro s₀ ops
  have hs : s₀.Unused := unused_of_forall (by decide) (by decide)
  have hops : ∀ op ∈ ops, op.Fits s₀ := by
    simp [ops, s₀, Op.Fits, room?, channel?]
  have hroom : ∃ room, (History.reached act s₀ ops).room? ⟨0⟩ = some room ∧
      room.nodes.length = 2 ∧ room.online = 2 := ⟨_, rfl, rfl, rfl⟩
  obtain ⟨room, hroom, hlength, honline⟩ := hroom
  obtain ⟨hpeak, hslots, -⟩ := slots_recycled hs ops hops hroom
  rw [hlength] at hpeak
  refine ⟨hs, hops, room, hroom, hpeak, honline, List.length_eq_zero_iff.mp ?_⟩
  omega

end Roster

end ChatRelay
