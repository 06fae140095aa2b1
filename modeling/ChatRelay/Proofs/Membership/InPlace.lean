import ChatRelay.Proofs.Membership.PlainLists
import ChatRelay.Proofs.Membership.Regular

/-!
# Registering in place

A bucket has no way to take back what it has done to its indexes, to a room or to a channel. When
it registers a channel it changes them one after the other (`putInPlace`): it registers a room if
there is none, takes the channel into the room, opens another room if that one turns out to be
retired, enters the user, and marks the channel. `putInPlace_eq` says that nevertheless a
registration is done in full or not at all, so that it may be described as one step.

A retired room can be registered, if its last member was taken out behind the bucket's back. Such
departures (`Move.leave`) keep the bucket orderly all the same, and a registration goes through.
-/

namespace ChatRelay.Bucket

variable {b b' : Bucket} {s s' s₀ : Roster} {user : UserId} {id : RoomId} {c c' : ChannelRef}
  {r : RoomRef} {channel : Channel}

/-! ## Step by step -/

/-- The room of an identifier. If there is none, a new one is registered. -/
def obtainRoom (b : Bucket) (s : Roster) (id : RoomId) : RoomRef × Bucket × Roster :=
  match b.lookupRoom id with
  | some r => (r, b, s)
  | none =>
    let (r, s) := s.addRoom (.new id)
    (r, { b with rooms := b.rooms.insert id r }, s)

/-- Take a channel into the room of an identifier, and replace the room if it is retired. -/
def enterInPlace (b : Bucket) (s : Roster) (id : RoomId) (c : ChannelRef) :
    Option RoomError × Bucket × Roster :=
  let (r, b, s) := b.obtainRoom s id
  match s.act (.put r c) with
  | (none, s) => (none, b, s)
  | (some (.dropped _), s) =>
    let (fresh, s) := s.addRoom (.new id)
    match s.act (.put fresh c) with
    | (none, s) => (none, { b with rooms := b.rooms.insert id fresh }, s.release r)
    | (some e, s) => (some e, b, s)

/-- Register a channel, and tell why it was refused, if it was. What was done before a refusal
stays done. -/
def putInPlace (b : Bucket) (s : Roster) (user : UserId) (id : RoomId) (c : ChannelRef) :
    Option BucketError × Bucket × Roster :=
  match s.channel? c with
  | none => (none, b, s)
  | some channel =>
    if channel.isJoined then (some (.alreadyJoined channel.connId), b, s)
    else if channel.isClosing then (some (.closing channel.connId), b, s)
    else
      match if id.isRoom then b.enterInPlace s id c else (none, b, s) with
      | (some e, b, s) => (some (.room e), b, s)
      | (none, b, s) =>
        let b := { b with users := b.users.insert user c }
        (none, b, s.modifyChannel c fun ch => ch.setJoined user id)

/-- A new room takes everybody in. -/
theorem exists_put_addRoom (s : Roster) (id : RoomId) (c : ChannelRef) :
    ∃ s', (s.addRoom (.new id)).2.put (s.addRoom (.new id)).1 c = .ok s' := by
  have hroom : (s.addRoom (.new id)).2.room? (s.addRoom (.new id)).1 = some (.new id) := by
    rw [Roster.room?_addRoom, if_pos rfl]
  obtain ⟨seated, hput⟩ : ∃ seated, (Room.new id).put c = .ok seated := ⟨_, rfl⟩
  simp only [Roster.put, hroom, hput]
  exact ⟨_, rfl⟩

/-- In place or in one step, a channel is taken into the room of an identifier, whatever state the
bucket and the roster are in. -/
theorem enterInPlace_eq (b : Bucket) (s : Roster) (id : RoomId) (c : ChannelRef) :
    ∃ b' s', b.enterRoom s id c = .ok (b', s') ∧ b.enterInPlace s id c = (none, b', s') := by
  obtain ⟨s₁, hput₁⟩ := exists_put_addRoom s id c
  cases hr : b.lookupRoom id with
  | none =>
    refine ⟨{ b with rooms := b.rooms.insert id (s.addRoom (.new id)).1 }, s₁, ?_, ?_⟩
    · simp only [enterRoom, hr, openRoom, hput₁, Except.map, Option.elim_none]
    · simp only [enterInPlace, obtainRoom, hr, Roster.act, hput₁]
  | some r =>
    cases hput : s.put r c with
    | ok s₂ =>
      refine ⟨b, s₂, ?_, ?_⟩
      · simp only [enterRoom, hr, hput]
      · simp only [enterInPlace, obtainRoom, hr, Roster.act, hput]
    | error e =>
      obtain ⟨id'⟩ := e
      refine ⟨{ b with rooms := b.rooms.insert id (s.addRoom (.new id)).1 }, s₁.release r, ?_, ?_⟩
      · simp only [enterRoom, hr, hput, openRoom, hput₁, Except.map, Option.elim_some]
      · simp only [enterInPlace, obtainRoom, hr, Roster.act, hput, hput₁]

/-- Whatever state the bucket and the roster are in, a registration is done in full or not at
all. -/
theorem putInPlace_eq (b : Bucket) (s : Roster) (user : UserId) (id : RoomId) (c : ChannelRef) :
    b.putInPlace s user id c = b.act s (.put user id c) := by
  cases hc : s.channel? c with
  | none => simp only [putInPlace, act, put, hc]
  | some channel =>
    cases hj : channel.isJoined with
    | true => simp only [putInPlace, act, put, hc, hj, if_true]
    | false =>
      cases hcl : channel.isClosing with
      | true => simp [putInPlace, act, put, hc, hj, hcl]
      | false =>
        cases hid : id.isRoom with
        | false => simp [putInPlace, act, put, hc, hj, hcl, hid]
        | true =>
          obtain ⟨b', s', henter, hinPlace⟩ := b.enterInPlace_eq s id c
          simp [putInPlace, act, put, hc, hj, hcl, hid, henter, hinPlace]

/-! ## A bucket whose rooms are left behind its back -/

/-- A call of the bucket, or a departure from a room that the bucket does not learn of. -/
inductive Move where
  | call (op : Op)
  | leave (r : RoomRef) (c : ChannelRef)
  deriving DecidableEq

/-- Carry out a move, and tell why it was refused, if it was. -/
def move (bs : Bucket × Roster) : Move → Option BucketError × Bucket × Roster
  | .call op => bs.1.act bs.2 op
  | .leave r c => (none, bs.1, (bs.2.remove r c).2)

def Move.Fits (s : Roster) : Move → Prop
  | .call op => op.Fits s
  | .leave _ _ => True

/-- By a history, the channel was registered. -/
def HasJoined (history : List (Move × Option BucketError)) (c : ChannelRef) : Prop :=
  ∃ user id, (.call (.put user id c), none) ∈ history

/-- By a history, the channel's teardown was begun. -/
def HasBegunClose (history : List (Move × Option BucketError)) (c : ChannelRef) : Prop :=
  ∃ answer, (.call (.beginClose c), answer) ∈ history

/-- What holds after a run: the bucket is orderly, and a channel has joined, or is closing, if the
history tells so. -/
structure Narrated (s₀ : Roster) (history : List (Move × Option BucketError)) (b : Bucket)
    (s : Roster) : Prop where
  orderly : b.Orderly s
  known : ∀ c, (s.user? c).isSome = (s₀.user? c).isSome
  isJoined_iff : ∀ c channel, s.carried? c = some channel →
    (channel.isJoined = true ↔ HasJoined history c)
  isClosing_iff : ∀ c channel, s.carried? c = some channel →
    (channel.isClosing = true ↔ HasBegunClose history c)

theorem narrated_new (hs : s₀.Unjoined) (i : Nat) (config : BucketConfig) :
    Narrated s₀ [] (new i config) s₀ where
  orderly := orderly_new hs i config
  known _ := rfl
  isJoined_iff c carried hc := by
    obtain ⟨channel, hchannel, rfl⟩ := Option.map_eq_some_iff.mp hc
    have hj : channel.isJoined = false := (hs.channels c channel hchannel).1
    change channel.isJoined = true ↔ _
    simp [hj, HasJoined]
  isClosing_iff c carried hc := by
    obtain ⟨channel, hchannel, rfl⟩ := Option.map_eq_some_iff.mp hc
    have hcl : channel.isClosing = false := (hs.channels c channel hchannel).2.1
    change channel.isClosing = true ↔ _
    simp [hcl, HasBegunClose]

theorem hasJoined_concat {history : List (Move × Option BucketError)}
    {entry : Move × Option BucketError} : HasJoined (history ++ [entry]) c ↔
      HasJoined history c ∨ ∃ user id, entry = (.call (.put user id c), none) := by
  simp only [HasJoined, List.mem_append, List.mem_singleton, exists_or, eq_comm]

theorem hasBegunClose_concat {history : List (Move × Option BucketError)}
    {entry : Move × Option BucketError} : HasBegunClose (history ++ [entry]) c ↔
      HasBegunClose history c ∨ ∃ answer, entry = (.call (.beginClose c), answer) := by
  simp only [HasBegunClose, List.mem_append, List.mem_singleton, exists_or, eq_comm]

namespace Narrated

variable {history : List (Move × Option BucketError)}

/-- A move that registers nobody and begins no teardown. -/
theorem concat_of_same (h : Narrated s₀ history b s) {entry : Move × Option BucketError}
    (horderly : b'.Orderly s') (hknown : ∀ c, (s'.user? c).isSome = (s.user? c).isSome)
    (hcarried : ∀ c, s'.carried? c = s.carried? c)
    (hput : ∀ user id c, entry ≠ (.call (.put user id c), none))
    (hclose : ∀ c answer, entry ≠ (.call (.beginClose c), answer)) :
    Narrated s₀ (history ++ [entry]) b' s' where
  orderly := horderly
  known c := (hknown c).trans (h.known c)
  isJoined_iff c channel hc := by
    rw [hcarried] at hc
    rw [h.isJoined_iff c channel hc, hasJoined_concat, or_iff_left]
    rintro ⟨user, id, he⟩
    exact hput user id c he
  isClosing_iff c channel hc := by
    rw [hcarried] at hc
    rw [h.isClosing_iff c channel hc, hasBegunClose_concat, or_iff_left]
    rintro ⟨answer, he⟩
    exact hclose c answer he

theorem concat_put (h : Narrated s₀ history b s) (hc : s.channel? c = some channel)
    (hu : user.isUnassigned = false) (he : b.Enrolled s user id c b' s') (horderly : b'.Orderly s')
    (hknown : ∀ c, (s'.user? c).isSome = (s.user? c).isSome) :
    Narrated s₀ (history ++ [(.call (.put user id c), none)]) b' s' where
  orderly := horderly
  known c := (hknown c).trans (h.known c)
  isJoined_iff c' carried hc' := by
    rw [he.carried? hc] at hc'
    rw [hasJoined_concat]
    split at hc'
    next he' =>
      rw [← Option.some.inj hc', Channel.isJoined, hu, he']
      simp
    next he' =>
      rw [h.isJoined_iff c' carried hc']
      simp [Ne.symm he']
  isClosing_iff c' carried hc' := by
    rw [he.carried? hc] at hc'
    rw [hasBegunClose_concat]
    split at hc'
    next he' =>
      rw [he', ← Option.some.inj hc']
      have hclosing := h.isClosing_iff c _ (Roster.carried?_of_channel? hc)
      simpa using hclosing
    next =>
      rw [h.isClosing_iff c' carried hc']
      simp

theorem concat_beginClose (h : Narrated s₀ history b s) (c : ChannelRef)
    (answer : Option BucketError) :
    Narrated s₀ (history ++ [(.call (.beginClose c), answer)]) b (s.beginClose c).2 where
  orderly := h.orderly.beginClose c
  known c' := by rw [user?_beginClose, h.known]
  isJoined_iff c' carried hc' := by
    rw [Roster.carried?_beginClose] at hc'
    rw [hasJoined_concat]
    split at hc'
    next he =>
      obtain ⟨channel, hc, rfl⟩ := Option.map_eq_some_iff.mp hc'
      have hjoined := h.isJoined_iff c channel hc
      rw [he]
      change channel.isJoined = true ↔ _
      simpa using hjoined
    next => simpa using h.isJoined_iff c' carried hc'
  isClosing_iff c' carried hc' := by
    rw [Roster.carried?_beginClose] at hc'
    rw [hasBegunClose_concat]
    split at hc'
    next he =>
      obtain ⟨channel, hc, rfl⟩ := Option.map_eq_some_iff.mp hc'
      simp [he]
    next he =>
      rw [h.isClosing_iff c' carried hc']
      simp [Ne.symm he]

theorem move (h : Narrated s₀ history b s) {m : Move} (hm : m.Fits s₀) :
    Narrated s₀ (history ++ [(m, (move (b, s) m).1)]) (move (b, s) m).2.1 (move (b, s) m).2.2 := by
  cases m with
  | leave r c =>
    refine h.concat_of_same (h.orderly.leave r c) (fun c' => ?_) (s.carried?_remove r c) (by simp)
      (by simp)
    exact congrArg _ (s.user?_remove r c c')
  | call op =>
    have hop : op.Fits s := Op.Fits.congr hm h.known
    have horderly := h.orderly.act hop
    have hknown := (indexes_act h.orderly.owned hop).known
    change Narrated s₀ (history ++ [(.call op, (b.act s op).1)]) (b.act s op).2.1 (b.act s op).2.2
    cases op with
    | put user id c =>
      obtain ⟨hu, channel, hc⟩ := hop
      obtain ⟨e, hact⟩ | ⟨-, b', s', -, hact, he⟩ := h.orderly.refused_or_enrolled hc user id
      · rw [hact]
        exact h.concat_of_same h.orderly (fun _ => rfl) (fun _ => rfl) (by simp) (by simp)
      · rw [hact] at horderly hknown ⊢
        exact h.concat_put hc hu he horderly hknown
    | remove c =>
      exact h.concat_of_same horderly hknown (b.carried?_remove s c) (by simp) (by simp)
    | beginClose c => exact h.concat_beginClose c none

end Narrated

theorem narrated_reached (hs : s₀.Unjoined) (i : Nat) (config : BucketConfig) {moves : List Move}
    (hmoves : ∀ m ∈ moves, m.Fits s₀) :
    Narrated s₀ (History.answered move (new i config, s₀) moves)
      (History.reached move (new i config, s₀) moves).1
      (History.reached move (new i config, s₀) moves).2 := by
  refine History.induct move (new i config, s₀)
    (P := fun history bs => Narrated s₀ history bs.1 bs.2) moves (narrated_new hs i config) ?_
  intro history bs m hm h
  exact h.move (hmoves m hm)

/-! ## All or nothing -/

/-- What a registration that goes through leads to. -/
structure Registered (b : Bucket) (s : Roster) (user : UserId) (id : RoomId) (c : ChannelRef)
    (b' : Bucket) (s' : Roster) : Prop where
  lookupUser : b'.lookupUser user = some c
  carried : ∃ channel, s'.channel? c = some channel ∧ channel.user = user ∧ channel.room = id
  inside : id.isRoom = true → ∃ r room, b'.lookupRoom id = some r ∧ s'.room? r = some room ∧
    room.isDropped = false ∧ room.members = c :: b.membersOf s id
  outside : id.isRoom = false → b'.rooms = b.rooms ∧ s'.rooms = s.rooms

theorem Enrolled.registered (he : b.Enrolled s user id c b' s') (hc : s.channel? c = some channel) :
    b.Registered s user id c b' s' := by
  refine ⟨by rw [he.lookupUser, if_pos rfl], ?_, fun hid => ?_, fun hid => ?_⟩
  · obtain ⟨link, hchannels⟩ := he.channel? hc
    exact ⟨_, by rw [hchannels, if_pos rfl], rfl, rfl⟩
  · cases he with
    | outside hno =>
      rw [hno] at hid
      cases hid
    | @inside r b₁ s₁ _ ha =>
      obtain ⟨room, hroom, -, hd, hmembers⟩ := ha.room
      exact ⟨r, room, (ha.lookupRoom id).trans (if_pos rfl), hroom, hd, hmembers⟩
  · cases he with
    | outside => exact ⟨rfl, rfl⟩
    | inside hyes =>
      rw [hyes] at hid
      cases hid

/-- A registration is all or nothing. Whatever a bucket was called for before, and whoever left a
room behind its back: a channel that has joined is refused, and so is one whose teardown was begun,
for no other reason and with nothing changed by then, and no room refuses one; otherwise the user
is registered with the channel, the channel carries user and room, and it is in front of the
members that the room had, in a room that is not retired; without a room, no room changes. -/
theorem put_all_or_nothing (hs : s₀.Unjoined) (i : Nat) (config : BucketConfig)
    (moves : List Move) (hmoves : ∀ m ∈ moves, m.Fits s₀) (user : UserId) (id : RoomId)
    (c : ChannelRef) (hput : (Op.put user id c).Fits s₀) :
    let history := History.answered move (new i config, s₀) moves
    let b := (History.reached move (new i config, s₀) moves).1
    let s := (History.reached move (new i config, s₀) moves).2
    let refusal := (b.putInPlace s user id c).1
    let b' := (b.putInPlace s user id c).2.1
    let s' := (b.putInPlace s user id c).2.2
    (refusal, b', s') = b.act s (.put user id c) ∧
      ((∃ n, refusal = some (.alreadyJoined n)) ↔ HasJoined history c) ∧
      ((∃ n, refusal = some (.closing n)) ↔ ¬ HasJoined history c ∧ HasBegunClose history c) ∧
      (∀ e, refusal ≠ some (.room e)) ∧
      (refusal ≠ none → b' = b ∧ s' = s) ∧
      (refusal = none → b.Registered s user id c b' s') := by
  intro history b s refusal b' s'
  have h : Narrated s₀ history b s := narrated_reached hs i config hmoves
  have heq := b.putInPlace_eq s user id c
  obtain ⟨-, channel, hc⟩ : (Op.put user id c).Fits s := Op.Fits.congr hput h.known
  have hjoined : channel.isJoined = true ↔ HasJoined history c :=
    h.isJoined_iff c { channel with link := none } (Roster.carried?_of_channel? hc)
  have hclosing : channel.isClosing = true ↔ HasBegunClose history c :=
    h.isClosing_iff c { channel with link := none } (Roster.carried?_of_channel? hc)
  refine ⟨heq, ?_⟩
  simp only [refusal, b', s', heq, ← hjoined, ← hclosing]
  cases hj : channel.isJoined with
  | true => simp [act_put_of_joined hc hj]
  | false =>
    cases hcl : channel.isClosing with
    | true => simp [act_put_of_closing hc hj hcl]
    | false =>
      obtain ⟨b₁, s₁, -, hact, he⟩ := h.orderly.act_put_of_open hc hj hcl user id
      simpa [hact] using he.registered hc

/-- The only member of a room leaves it behind the bucket's back, and the room stays registered,
retired. The next one who comes gets a room that is not; and who has left may not come again. -/
theorem put_all_or_nothing_retired :
    let s₀ : Roster := ⟨[.new 1 8, .new 2 8], []⟩
    let moves : List Move := [.call (.put ⟨9⟩ ⟨7⟩ ⟨0⟩), .leave ⟨0⟩ ⟨0⟩]
    let b := (History.reached move (new 0 ⟨1, 8, 8, 1, 1⟩, s₀) moves).1
    let s := (History.reached move (new 0 ⟨1, 8, 8, 1, 1⟩, s₀) moves).2
    s₀.Unjoined ∧ (∀ m ∈ moves, m.Fits s₀) ∧ b.lookupRoom ⟨7⟩ = some ⟨0⟩ ∧
      (s.room? ⟨0⟩).map Room.isDropped = some true ∧
      (∃ n, (b.putInPlace s ⟨9⟩ ⟨7⟩ ⟨0⟩).1 = some (.alreadyJoined n)) ∧
      (Op.put ⟨8⟩ ⟨7⟩ ⟨1⟩).Fits s₀ ∧
      b.Registered s ⟨8⟩ ⟨7⟩ ⟨1⟩ (b.putInPlace s ⟨8⟩ ⟨7⟩ ⟨1⟩).2.1
        (b.putInPlace s ⟨8⟩ ⟨7⟩ ⟨1⟩).2.2 := by
  intro s₀ moves b s
  have hs : s₀.Unjoined := Roster.unjoined_of_forall (by decide)
  have hmoves : ∀ m ∈ moves, m.Fits s₀ := by
    simp [moves, s₀, Move.Fits, Op.Fits, Roster.channel?, UserId.isUnassigned]
  have hput₀ : (Op.put ⟨9⟩ ⟨7⟩ ⟨0⟩).Fits s₀ := by
    simp [s₀, Op.Fits, Roster.channel?, UserId.isUnassigned]
  have hput₁ : (Op.put ⟨8⟩ ⟨7⟩ ⟨1⟩).Fits s₀ := by
    simp [s₀, Op.Fits, Roster.channel?, UserId.isUnassigned]
  obtain ⟨-, hjoined, -⟩ := put_all_or_nothing hs 0 ⟨1, 8, 8, 1, 1⟩ moves hmoves ⟨9⟩ ⟨7⟩ ⟨0⟩ hput₀
  obtain ⟨-, -, -, -, -, hregistered⟩ :=
    put_all_or_nothing hs 0 ⟨1, 8, 8, 1, 1⟩ moves hmoves ⟨8⟩ ⟨7⟩ ⟨1⟩ hput₁
  refine ⟨hs, hmoves, by decide +kernel, by decide +kernel, hjoined.mpr ⟨⟨9⟩, ⟨7⟩, ?_⟩, hput₁,
    hregistered (by decide +kernel)⟩
  decide +kernel

end ChatRelay.Bucket
