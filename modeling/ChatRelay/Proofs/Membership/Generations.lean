import ChatRelay.Proofs.Membership.PlainLists
import ChatRelay.Proofs.Membership.Regular

/-!
# Generations of rooms

A room that has lost its last member is retired for good. It stays as it is whatever is called, and
takes nobody in. A bucket that needs the room again opens another one, under the same identifier
and a new name.

What can be seen of this from outside is a list of events (`RoomEvent`): a registration opens a
room, a removal reports that it closed one. For one identifier these take turns, and the room that
is registered is the one that was opened last, unless it was closed. A name that is no longer
registered never is again, so that who holds on to a retired room holds nothing that the bucket
will ever use.
-/

namespace ChatRelay

namespace Roster

variable {s s' s₀ : Roster} {r : RoomRef} {room : Room} {op : Op} {answer : Option RoomError}
  {history : List (Op × Option RoomError)}

/-! ## One room -/

theorem Aligned.members_of_dropped (h : s.Aligned) (hroom : s.room? r = some room)
    (hd : room.isDropped = true) : room.members = [] := by
  obtain ⟨seats, hs, -⟩ := h r room hroom
  rw [hs.members_eq, hs.retired hd, List.map_nil]

/-- No call changes a retired room. -/
theorem Turn.room?_of_dropped (ht : s.Turn op answer s') (h : s.Aligned)
    (hroom : s.room? r = some room) (hd : room.isDropped = true) : s'.room? r = some room := by
  cases ht with
  | refused | stayed => exact hroom
  | entered hroom' _ hd' =>
    rw [room?_relinked hroom', if_neg, hroom]
    rintro rfl
    rw [hroom] at hroom'
    rw [← Option.some.inj hroom', hd] at hd'
    cases hd'
  | left hroom' _ _ _ hmem =>
    rw [room?_relinked hroom', if_neg, hroom]
    rintro rfl
    rw [hroom] at hroom'
    rw [← Option.some.inj hroom', h.members_of_dropped hroom hd] at hmem
    cases hmem

/-- By a history, somebody was put into the room. -/
def WasUsed (history : List (Op × Option RoomError)) (r : RoomRef) : Prop :=
  ∃ c, (Op.put r c, none) ∈ history

theorem wasUsed_concat : WasUsed (history ++ [(op, answer)]) r ↔
    WasUsed history r ∨ ∃ c, op = .put r c ∧ answer = none := by
  simp only [WasUsed, List.mem_append, List.mem_singleton, Prod.mk.injEq, exists_or, eq_comm]

/-- What a history tells about one room: it is retired if it was used and has no members, and
without members if it was not used. -/
structure Dated (history : List (Op × Option RoomError)) (r : RoomRef) (room : Room) : Prop where
  isDropped_iff : room.isDropped = true ↔ WasUsed history r ∧ room.members = []
  wasUsed : room.members ≠ [] → WasUsed history r

theorem Turn.dated (ht : s.Turn op answer s')
    (h : ∀ r room, s.room? r = some room → Dated history r room) (hroom : s'.room? r = some room) :
    Dated (history ++ [(op, answer)]) r room := by
  have hkept : ∀ {room}, Dated history r room → (¬ ∃ c, op = .put r c ∧ answer = none) →
      Dated (history ++ [(op, answer)]) r room := by
    rintro room ⟨hiff, hused⟩ hno
    have hsame : WasUsed (history ++ [(op, answer)]) r ↔ WasUsed history r := by
      rw [wasUsed_concat, or_iff_left hno]
    exact ⟨by rw [hsame, hiff], fun hne => hsame.mpr (hused hne)⟩
  cases ht with
  | refused | stayed => exact hkept (h r room hroom) (by simp)
  | @entered r' c' room' room'' _ _ hroom' _ _ _ hd' hmem =>
    rw [room?_relinked hroom'] at hroom
    split at hroom
    next he =>
      obtain rfl := Option.some.inj hroom
      refine ⟨by simp [hd', hmem], fun _ => wasUsed_concat.mpr (.inr ⟨c', ?_, rfl⟩)⟩
      rw [he]
    next he => exact hkept (h r room hroom) (by simp [Ne.symm he])
  | @left r' c' room' room'' _ hroom' _ _ hd hmem =>
    rw [room?_relinked hroom'] at hroom
    split at hroom
    next he =>
      obtain rfl := Option.some.inj hroom
      -- The channel that has left had been put into the room.
      have hused := (he ▸ h _ _ hroom').wasUsed (List.ne_nil_of_mem hmem)
      have hused' : WasUsed (history ++ [(.remove r' c', none)]) r :=
        wasUsed_concat.mpr (.inl hused)
      exact ⟨by rw [hd, and_iff_right hused'], fun _ => hused'⟩
    next => exact hkept (h r room hroom) (by simp)

theorem dated_reached (hs : s₀.Unused) {ops : List Op} (hops : ∀ op ∈ ops, op.Fits s₀) :
    Told s₀ (History.answered act s₀ ops) (History.reached act s₀ ops) ∧
      ∀ r room, (History.reached act s₀ ops).room? r = some room →
        Dated (History.answered act s₀ ops) r room := by
  refine History.induct act s₀ (P := fun history s => Told s₀ history s ∧
    ∀ r room, s.room? r = some room → Dated history r room) ops ⟨hs.told, ?_⟩ ?_
  · intro r room hroom
    rw [hs.rooms r room hroom]
    exact ⟨by simp [Room.new, WasUsed], fun hne => absurd rfl hne⟩
  · rintro history s op hop ⟨htold, hdated⟩
    have hturn := (htold.aligned.turn ((htold.fits op).mpr (hops op hop))).1
    exact ⟨htold.act (hops op hop), fun r room hroom => hturn.dated hdated hroom⟩

/-- A retired room stays as it is, whatever is called. -/
theorem room?_reached_of_dropped (h : Told s₀ history s) (hroom : s.room? r = some room)
    (hd : room.isDropped = true) {ops : List Op} (hops : ∀ op ∈ ops, op.Fits s₀) :
    (History.reached act s ops).room? r = some room ∧ (History.reached act s ops).Aligned := by
  have hreached : (∃ history', Told s₀ history' (History.reached act s ops)) ∧
      (History.reached act s ops).room? r = some room := by
    refine History.induct act s (P := fun _ s => (∃ history', Told s₀ history' s) ∧
      s.room? r = some room) ops ⟨⟨history, h⟩, hroom⟩ ?_
    rintro _ s op hop ⟨⟨history', htold⟩, hroom⟩
    have hturn := (htold.aligned.turn ((htold.fits op).mpr (hops op hop))).1
    exact ⟨⟨_, htold.act (hops op hop)⟩, hturn.room?_of_dropped htold.aligned hroom hd⟩
  obtain ⟨⟨history', htold⟩, hroom'⟩ := hreached
  exact ⟨hroom', htold.aligned⟩

theorem length_rooms_remove (s : Roster) (r : RoomRef) (c : ChannelRef) :
    (s.remove r c).2.rooms.length = s.rooms.length := by
  unfold remove
  split
  next => rfl
  next room _ =>
    split
    next => rfl
    next room' _ => exact length_rooms_relinked s r room' c none

end Roster

namespace Bucket

/-! ## The rooms of an identifier -/

/-- What can be seen of the room index from outside. -/
inductive RoomEvent where
  | opened (id : RoomId) (r : RoomRef)
  | closed (id : RoomId)
  deriving DecidableEq

namespace RoomEvent

def id : RoomEvent → RoomId
  | opened id _ | closed id => id

def isOpening : RoomEvent → Bool
  | opened _ _ => true
  | closed _ => false

/-- The events that concern an identifier. -/
def about (id : RoomId) (events : List RoomEvent) : List RoomEvent :=
  events.filter fun e => e.id = id

/-- Openings and closings take turns, and the first event is an opening. -/
def TakeTurns (events : List RoomEvent) : Prop :=
  (∀ e ∈ events.head?, e.isOpening = true) ∧
    events.IsChain fun e e' => e.isOpening ≠ e'.isOpening

theorem about_concat (id : RoomId) (events : List RoomEvent) (e : RoomEvent) :
    about id (events ++ [e]) = about id events ++ if e.id = id then [e] else [] := by
  rw [about, List.filter_append]
  by_cases he : e.id = id
  · simp [about, he]
  · simp [about, he]

end RoomEvent

open RoomEvent

variable {b b' : Bucket} {s s' s₀ : Roster} {user : UserId} {id : RoomId} {r : RoomRef}
  {c : ChannelRef} {channel : Channel} {closed : Bool} {events : List RoomEvent}
  {event : Option RoomEvent}

/-- The event that an operation is: a registration opens a room if there is one more afterwards,
a removal closes a room if it says so. -/
def roomEvent? (b : Bucket) (s : Roster) : Op → Option RoomEvent
  | .put user id c =>
    if s.rooms.length < (b.act s (.put user id c)).2.2.rooms.length then
      some (.opened id ⟨s.rooms.length⟩)
    else none
  | .remove c => (b.remove s c).1.bind fun d => if d.roomClosed then some (.closed d.room) else none
  | .beginClose _ => none

/-- Carry out an operation, and tell its event. -/
def observe (bs : Bucket × Roster) (op : Op) : Option RoomEvent × Bucket × Roster :=
  (bs.1.roomEvent? bs.2 op, (bs.1.act bs.2 op).2)

/-- The events of a list of operations. -/
def roomEvents (b : Bucket) (s : Roster) (ops : List Op) : List RoomEvent :=
  (History.answered observe (b, s) ops).filterMap Prod.snd

/-- Everything that an operation can do to the room index. -/
inductive RoomTurn (b : Bucket) (s : Roster) : Option RoomEvent → Bucket → Roster → Prop
  | kept {b' : Bucket} {s' : Roster} : (∀ id, b'.lookupRoom id = b.lookupRoom id) →
    s'.rooms.length = s.rooms.length → RoomTurn b s none b' s'
  | opened {id : RoomId} {b' : Bucket} {s' : Roster} : b.lookupRoom id = none →
    (∀ id', b'.lookupRoom id' =
      if id' = id then some ⟨s.rooms.length⟩ else b.lookupRoom id') →
    s'.rooms.length = s.rooms.length + 1 →
    RoomTurn b s (some (.opened id ⟨s.rooms.length⟩)) b' s'
  | closed {id : RoomId} {r : RoomRef} {b' : Bucket} {s' : Roster} : b.lookupRoom id = some r →
    (∀ id', b'.lookupRoom id' = if id' = id then none else b.lookupRoom id') →
    s'.rooms.length = s.rooms.length → RoomTurn b s (some (.closed id)) b' s'

theorem length_rooms_leaveRoom (b : Bucket) (s : Roster) (c : ChannelRef) :
    (b.leaveRoom s c).2.2.rooms.length = s.rooms.length := by
  unfold leaveRoom
  split
  next => rfl
  next r room _ =>
    dsimp only
    split
    next => exact List.length_set.trans (s.length_rooms_remove r c)
    next => exact s.length_rooms_remove r c

theorem length_rooms_remove (b : Bucket) (s : Roster) (c : ChannelRef) :
    (b.remove s c).2.2.rooms.length = s.rooms.length := by
  unfold remove
  split
  next => rfl
  next channel _ =>
    split
    next => exact length_rooms_leaveRoom _ s c
    next => rfl

/-- A registration opens a room if none is registered. -/
theorem Enrolled.roomTurn (h : b.Located s) (hp : s.Peopled)
    (he : b.Enrolled s user id c b' s') :
    b.RoomTurn s (if s.rooms.length < s'.rooms.length then some (.opened id ⟨s.rooms.length⟩)
      else none) b' s' := by
  cases he with
  | outside =>
    change RoomTurn b s (if s.rooms.length < s.rooms.length then _ else none) _ _
    rw [if_neg (Nat.lt_irrefl s.rooms.length)]
    exact .kept (fun _ => rfl) rfl
  | @inside r b₁ s₁ _ ha =>
    change RoomTurn b s (if s.rooms.length < s₁.rooms.length then _ else none) _ _
    rcases ha.known_or_fresh with ⟨hknown, hlength⟩ | ⟨hindex, hlength, hdropped⟩
    · rw [hlength, if_neg (Nat.lt_irrefl s.rooms.length)]
      refine .kept (fun id' => (ha.lookupRoom id').trans ?_) hlength
      split
      next he => rw [he, hknown]
      next => rfl
    · have hnone : b.lookupRoom id = none := by
        cases hr : b.lookupRoom id with
        | none => rfl
        | some r' =>
          obtain ⟨room, hroom, -, hd⟩ := h.exists_room_of_peopled hp hr
          rw [hdropped r' room hr hroom] at hd
          cases hd
      rw [hlength, if_pos (Nat.lt_succ_self s.rooms.length)]
      obtain rfl : r = ⟨s.rooms.length⟩ := congrArg RoomRef.mk hindex
      exact .opened hnone ha.lookupRoom hlength

/-- A removal closes the room that was registered, if it closes one. -/
theorem Parted.roomTurn (h : b.Located s) (hc : s.channel? c = some channel)
    (hp : b.Parted s c channel closed b' s') (hlength : s'.rooms.length = s.rooms.length) :
    b.RoomTurn s (if closed then some (.closed channel.room) else none) b' s' := by
  cases hp with
  | outside => exact .kept (lookupRoom_unregister b channel.user c) hlength
  | @inside link _ _ _ hl hleft =>
    have hlookup := hleft.lookupRoom
    simp only [lookupRoom_unregister] at hlookup
    cases closed with
    | false =>
      refine .kept (fun id => ?_) hlength
      rw [hlookup, if_neg (fun he => Bool.false_ne_true he.2)]
    | true =>
      refine .closed (h.placed c channel link hc hl) (fun id => ?_) hlength
      simp [hlookup]

theorem Regular.roomTurn (h : Regular s₀ b s) {op : Op} (hop : op.Fits s₀) :
    b.RoomTurn s (b.roomEvent? s op) (b.act s op).2.1 (b.act s op).2.2 := by
  have hkept : b.RoomTurn s none b s := .kept (fun _ => rfl) rfl
  cases op with
  | put user id c =>
    obtain ⟨-, channel, hc⟩ := h.fits hop
    obtain ⟨e, hact⟩ | ⟨-, b', s', -, hact, he⟩ := h.orderly.refused_or_enrolled hc user id
    · simpa [roomEvent?, hact] using hkept
    · simp only [roomEvent?, hact]
      exact he.roomTurn h.orderly.toLocated h.peopled
  | remove c =>
    have hlength := b.length_rooms_remove s c
    simp only [roomEvent?]
    change b.RoomTurn s _ (b.remove s c).2.1 (b.remove s c).2.2
    obtain ⟨-, hremove⟩ | ⟨channel, closed, b', s', hc, -, hremove, hp⟩ := h.orderly.remove_cases c
    · rw [hremove]
      exact hkept
    · rw [hremove] at hlength ⊢
      exact hp.roomTurn h.orderly.toLocated hc hlength
  | beginClose c =>
    refine .kept (fun _ => rfl) ?_
    change (s.beginClose c).2.rooms.length = s.rooms.length
    rw [Roster.beginClose_snd]
    rfl

/-- What a list of events tells: openings and closings take turns, and the room that was opened
last is the one that is registered. -/
structure Ledger (events : List RoomEvent) (b : Bucket) : Prop where
  takeTurns : ∀ id, TakeTurns (about id events)
  lookupRoom_iff : ∀ id r,
    b.lookupRoom id = some r ↔ (about id events).getLast? = some (.opened id r)

theorem ledger_new (i : Nat) (config : BucketConfig) : Ledger [] (new i config) where
  takeTurns id := by simp [about, TakeTurns]
  lookupRoom_iff id r := by simp [about, lookupRoom, new]

/-- An identifier without a room has no event, or a closing was the last one. -/
theorem Ledger.isOpening_of_none (h : Ledger events b) (hid : b.lookupRoom id = none)
    {e : RoomEvent} (he : (about id events).getLast? = some e) : e.isOpening = false := by
  have hmem := List.mem_of_getLast? he
  have hee : e.id = id := of_decide_eq_true (List.mem_filter.mp hmem).2
  cases e with
  | closed => rfl
  | opened id' r =>
    obtain rfl : id' = id := hee
    rw [(h.lookupRoom_iff id' r).mpr he] at hid
    cases hid

/-- One more event about an identifier, which alternates with the last one. -/
theorem Ledger.concat (h : Ledger events b) (e : RoomEvent)
    (hstart : about e.id events = [] → e.isOpening = true)
    (hturn : ∀ e' ∈ (about e.id events).getLast?, e'.isOpening ≠ e.isOpening)
    (hlookup : ∀ id r, b'.lookupRoom id = some r ↔
      if e.id = id then e = .opened id r else b.lookupRoom id = some r) :
    Ledger (events ++ [e]) b' where
  takeTurns id := by
    rw [about_concat]
    split
    next he =>
      subst he
      obtain ⟨hhead, hchain⟩ := h.takeTurns e.id
      constructor
      · cases hevents : about e.id events with
        | nil => simpa using hstart hevents
        | cons e' rest =>
          rw [hevents] at hhead
          simpa using hhead
      · refine List.isChain_append.mpr ⟨hchain, List.isChain_singleton e, ?_⟩
        rintro e' he' e'' ⟨⟩
        exact hturn e' he'
    next =>
      rw [List.append_nil]
      exact h.takeTurns id
  lookupRoom_iff id r := by
    rw [hlookup, about_concat]
    split
    next => rw [List.getLast?_concat, Option.some.injEq]
    next => rw [List.append_nil, h.lookupRoom_iff]

theorem RoomTurn.ledger (ht : b.RoomTurn s event b' s') (h : Ledger events b) :
    Ledger (events ++ event.toList) b' := by
  cases ht with
  | kept hlookup =>
    rw [Option.toList_none, List.append_nil]
    exact ⟨h.takeTurns, fun id r => by rw [hlookup, h.lookupRoom_iff]⟩
  | @opened id _ _ hnone hlookup =>
    refine h.concat _ (fun _ => rfl) ?_ fun id' r => ?_
    · intro e' he'
      rw [h.isOpening_of_none hnone he']
      exact Bool.false_ne_true
    · rw [hlookup]
      change _ ↔ if id = id' then _ else _
      by_cases he : id' = id
      · simp [he]
      · simp [he, Ne.symm he]
  | @closed id r _ _ hsome hlookup =>
    have hlast := (h.lookupRoom_iff id r).mp hsome
    refine h.concat _ (fun hnil => ?_) ?_ fun id' r' => ?_
    · change about id events = [] at hnil
      rw [hnil] at hlast
      cases hlast
    · intro e' he'
      change (about id events).getLast? = some e' at he'
      rw [hlast] at he'
      obtain rfl := Option.some.inj he'
      exact Bool.false_ne_true.symm
    · rw [hlookup]
      change _ ↔ if id = id' then _ else _
      by_cases he : id' = id
      · simp [he]
      · simp [he, Ne.symm he]

theorem ledger_after (hs : s₀.Unjoined) (i : Nat) (config : BucketConfig) {ops : List Op}
    (hops : ∀ op ∈ ops, op.Fits s₀) :
    Ledger ((new i config).roomEvents s₀ ops) ((new i config).after s₀ ops).1 := by
  have hreached := History.induct observe (new i config, s₀)
    (P := fun history bs => Regular s₀ bs.1 bs.2 ∧ Ledger (history.filterMap Prod.snd) bs.1) ops
    ⟨regular_new hs i config, ledger_new i config⟩ ?_
  · exact hreached.2
  · rintro history bs op hop ⟨hregular, hledger⟩
    refine ⟨hregular.act (hops op hop), ?_⟩
    have hturn := hregular.roomTurn (hops op hop)
    have hevents : (history ++ [(op, (observe bs op).1)]).filterMap Prod.snd =
        history.filterMap Prod.snd ++ (bs.1.roomEvent? bs.2 op).toList := by
      rw [List.filterMap_append]
      rfl
    rw [hevents]
    exact hturn.ledger hledger

/-- A name that is taken and not registered will not be registered. -/
theorem Regular.lookupRoom_ne_after (h : Regular s₀ b s) (hr : r.index < s.rooms.length)
    (hne : ∀ id, b.lookupRoom id ≠ some r) {ops : List Op} (hops : ∀ op ∈ ops, op.Fits s₀)
    (id : RoomId) : (b.after s ops).1.lookupRoom id ≠ some r := by
  have hreached := History.induct (fun bs op => bs.1.act bs.2 op) (b, s)
    (P := fun _ bs => Regular s₀ bs.1 bs.2 ∧ r.index < bs.2.rooms.length ∧
      ∀ id, bs.1.lookupRoom id ≠ some r) ops ⟨h, hr, hne⟩ ?_
  · exact hreached.2.2 id
  · rintro _ ⟨b, s⟩ op hop ⟨hregular, hlt, hne⟩
    refine ⟨hregular.act (hops op hop), ?_⟩
    have hturn := hregular.roomTurn (hops op hop)
    generalize b.roomEvent? s op = event at hturn
    cases hturn with
    | kept hlookup hlength =>
      exact ⟨hlength ▸ hlt, fun id => hlookup id ▸ hne id⟩
    | @opened id _ _ _ hlookup hlength =>
      refine ⟨by omega, fun id' => ?_⟩
      rw [hlookup]
      split
      next =>
        intro he
        rw [← Option.some.inj he] at hlt
        exact Nat.lt_irrefl _ hlt
      next => exact hne id'
    | closed _ hlookup hlength =>
      refine ⟨hlength ▸ hlt, fun id' => ?_⟩
      rw [hlookup]
      split
      next => exact Option.some_ne_none r ∘ Eq.symm
      next => exact hne id'

/-- Rooms do not come back. Whatever channels are put into rooms and taken out of them, a room is
retired if and only if a put into it has succeeded and it counts no members; from then on it stays
as it is, lists nobody, and refuses every put, which leaves all channels as they are. Whatever a
bucket is called for, openings and closings take turns for each identifier, and an opening is the
first; the room that is registered is the one opened last, while it is not closed, and is not
retired; a room that is not registered now, though it was opened before, will not be registered
again. -/
theorem rooms_never_return {s₀ : Roster} (hs₀ : s₀.Unused) (calls : List Roster.Op)
    (hcalls : ∀ op ∈ calls, op.Fits s₀) {t₀ : Roster} (ht₀ : t₀.Unjoined) (i : Nat)
    (config : BucketConfig) (ops : List Op) (hops : ∀ op ∈ ops, op.Fits t₀) :
    let history := History.answered Roster.act s₀ calls
    let s := History.reached Roster.act s₀ calls
    let events := (new i config).roomEvents t₀ ops
    let b := ((new i config).after t₀ ops).1
    let t := ((new i config).after t₀ ops).2
    (∀ r room, s.room? r = some room →
      (room.isDropped = true ↔ (∃ c, (.put r c, none) ∈ history) ∧ room.online = 0) ∧
      (room.isDropped = true → ∀ calls' : List Roster.Op, (∀ op ∈ calls', op.Fits s₀) →
        let s' := History.reached Roster.act s calls'
        s'.room? r = some room ∧ s'.members r = [] ∧
          ∀ c, s'.act (.put r c) = (some (.dropped room.id), s'))) ∧
    (∀ id, TakeTurns (about id events)) ∧
    (∀ id r, b.lookupRoom id = some r ↔ (about id events).getLast? = some (.opened id r)) ∧
    (∀ id r, b.lookupRoom id = some r →
      ∃ room, t.room? r = some room ∧ room.id = id ∧ room.isDropped = false) ∧
    ∀ r : RoomRef, r.index < t.rooms.length → (∀ id, b.lookupRoom id ≠ some r) →
      ∀ ops' : List Op, (∀ op ∈ ops', op.Fits t₀) →
        ∀ id, (b.after t ops').1.lookupRoom id ≠ some r := by
  intro history s events b t
  obtain ⟨htold, hdated⟩ := Roster.dated_reached hs₀ hcalls
  have hregular := regular_after ht₀ i config hops
  have hledger : Ledger events b := ledger_after ht₀ i config hops
  refine ⟨?_, hledger.takeTurns, hledger.lookupRoom_iff, fun id r hr =>
    hregular.orderly.exists_room_of_peopled hregular.peopled hr, ?_⟩
  · intro r room hroom
    constructor
    · obtain ⟨seats, hs, -⟩ := htold.aligned r room hroom
      rw [(hdated r room hroom).isDropped_iff, hs.tidy.online, List.length_eq_zero_iff]
      rfl
    · intro hd calls' hcalls' s'
      obtain ⟨hroom', haligned⟩ := Roster.room?_reached_of_dropped htold hroom hd hcalls'
      refine ⟨hroom', ?_, fun c => ?_⟩
      · rw [Roster.members_of_room? hroom', haligned.members_of_dropped hroom' hd]
      · have hput : s'.put r c = .error (.dropped room.id) := Roster.put_of_dropped hroom' hd c
        simp only [Roster.act, hput]
  · intro r hr hne ops' hops' id
    exact hregular.lookupRoom_ne_after hr hne hops' id

/-- A room is retired by the one member it had, and refuses the next. In a bucket, two channels
come to a room one after the other, the first of them long gone: two rooms are opened, and only the
second one is registered. -/
theorem rooms_never_return_reopened :
    let s₀ : Roster := ⟨[.new 1 8, .new 2 8], [some (.new ⟨7⟩)]⟩
    let calls : List Roster.Op := [.put ⟨0⟩ ⟨0⟩, .remove ⟨0⟩ ⟨0⟩]
    let t₀ : Roster := ⟨[.new 1 8, .new 2 8], []⟩
    let ops : List Op := [.put ⟨9⟩ ⟨7⟩ ⟨0⟩, .remove ⟨0⟩, .remove ⟨0⟩, .put ⟨9⟩ ⟨7⟩ ⟨1⟩]
    let b := ((new 0 ⟨1, 8, 8, 1, 1⟩).after t₀ ops).1
    s₀.Unused ∧ (∀ op ∈ calls, op.Fits s₀) ∧ t₀.Unjoined ∧ (∀ op ∈ ops, op.Fits t₀) ∧
      ((History.reached Roster.act s₀ calls).act (.put ⟨0⟩ ⟨1⟩)).1 = some (.dropped ⟨7⟩) ∧
      (new 0 ⟨1, 8, 8, 1, 1⟩).roomEvents t₀ ops =
        [.opened ⟨7⟩ ⟨0⟩, .closed ⟨7⟩, .opened ⟨7⟩ ⟨1⟩] ∧
      b.lookupRoom ⟨7⟩ = some ⟨1⟩ := by
  intro s₀ calls t₀ ops b
  have hs₀ : s₀.Unused := Roster.unused_of_forall (by decide) (by decide)
  have hcalls : ∀ op ∈ calls, op.Fits s₀ := by
    simp [calls, s₀, Roster.Op.Fits, Roster.room?, Roster.channel?]
  have ht₀ : t₀.Unjoined := Roster.unjoined_of_forall (by decide)
  have hops : ∀ op ∈ ops, op.Fits t₀ := by
    simp [ops, t₀, Op.Fits, Roster.channel?, UserId.isUnassigned]
  have hevents : (new 0 ⟨1, 8, 8, 1, 1⟩).roomEvents t₀ ops =
      [.opened ⟨7⟩ ⟨0⟩, .closed ⟨7⟩, .opened ⟨7⟩ ⟨1⟩] := by decide +kernel
  obtain ⟨hrooms, -, hlookup, -⟩ :=
    rooms_never_return hs₀ calls hcalls ht₀ 0 ⟨1, 8, 8, 1, 1⟩ ops hops
  refine ⟨hs₀, hcalls, ht₀, hops, ?_, hevents, (hlookup ⟨7⟩ ⟨1⟩).mpr ?_⟩
  · obtain ⟨room, hroom, hd, hid⟩ : ∃ room,
        (History.reached Roster.act s₀ calls).room? ⟨0⟩ = some room ∧ room.isDropped = true ∧
          room.id = ⟨7⟩ := ⟨_, rfl, rfl, rfl⟩
    obtain ⟨-, -, hput⟩ := (hrooms ⟨0⟩ room hroom).2 hd [] (by simp)
    rw [← hid]
    exact congrArg Prod.fst (hput ⟨1⟩)
  · rw [hevents]
    rfl

end Bucket

end ChatRelay
