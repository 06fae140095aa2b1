import ChatRelay.Proofs.Relay.Outcome
import Mathlib.Data.List.Induction

/-!
# The records agree with what was done

From the outside a server is known by its history: who joined as which user with which room, and
who has been torn down since. `sessions` reads that off the calls and their answers alone, without
a look at the server. `Consistent` says that the user indexes, the room indexes, the lists inside
the rooms and the links of the channels all tell what the sessions tell, and it holds after every
run of a server that started empty.
-/

namespace ChatRelay

/-- A channel that has joined as a user with a room. -/
structure Session where
  channel : ChannelRef
  user : UserId
  room : RoomId
  deriving DecidableEq, Repr

/-- The open sessions after one more answered move: a join that succeeded opens one, a teardown
ends those of its channel. -/
def Session.next (live : List Session) : Move × Answer → List Session
  | (.call k, .joined (.ok user) _) =>
    live ++ (k.entry?.map fun (c, room) => ⟨c, user, room⟩).toList
  | (.call k, .left _) => live.filter fun x => k.channel? ≠ some x.channel
  | _ => live

/-- The open sessions that a history tells of. -/
def sessions (history : List (Move × Answer)) : List Session :=
  history.foldl Session.next []

namespace Server

variable {s s' : Server} {m : Move} {a : Answer} {live : List Session}

/-- The channel of a session carries its user and room, and its teardown has not begun. -/
def Carries (s : Server) (x : Session) : Prop :=
  ∃ channel, s.channel? x.channel = some channel ∧ channel.user = x.user ∧
    channel.room = x.room ∧ channel.isJoined = true ∧ channel.isClosing = false

/-- A change that keeps what a channel carries keeps its sessions. -/
theorem carries_congr {x : Session} (f : Channel → Channel)
    (hc : s'.channel? x.channel = (s.channel? x.channel).map f)
    (hf : ∀ ch, (f ch).user = ch.user ∧ (f ch).room = ch.room ∧ (f ch).isClosing = ch.isClosing) :
    s'.Carries x ↔ s.Carries x := by
  unfold Carries
  rw [hc]
  cases s.channel? x.channel with
  | none => simp
  | some channel =>
    obtain ⟨hu, hr, hcl⟩ := hf channel
    simp [hu, hr, hcl, Channel.isJoined]

/-- Mail does not matter. -/
theorem carries_of_mapMail (hr : ∃ f, s'.hub.roster = s.hub.roster.mapMail f) (x : Session) :
    s'.Carries x ↔ s.Carries x := by
  obtain ⟨f, hr⟩ := hr
  refine carries_congr (fun ch => { ch with mailbox := f x.channel ch.mailbox }) ?_ fun _ =>
    ⟨rfl, rfl, rfl⟩
  rw [channel?, hr, Roster.channel?_mapMail]
  rfl

theorem carries_openChannel (s : Server) (x : Session) :
    s.openChannel.2.Carries x ↔ s.Carries x := by
  have hchannel := s.channel?_openChannel x.channel
  by_cases hx : x.channel = s.openChannel.1
  · have hold : s.channel? x.channel = none := by rw [hx, channel?_openChannel_fst]
    rw [if_pos hx] at hchannel
    simp [Carries, hold, hchannel, Channel.new, Channel.isJoined, UserId.isUnassigned,
      UserId.unassigned]
  · refine carries_congr (fun ch => ch) ?_ fun _ => ⟨rfl, rfl, rfl⟩
    rw [Option.map_id', hchannel, if_neg hx]

/-- A channel that is admitted opens a session, and no other one is touched. -/
theorem Admits.carries_iff (hs : s.hub.Sound) {c : ChannelRef} {user : UserId} {room : RoomId}
    {b : Bucket} {channel : Channel} (ha : s.Admits c user room b channel s') (x : Session) :
    s'.Carries x ↔ s.Carries x ∨ x = ⟨c, user, room⟩ := by
  obtain ⟨link, hchannels⟩ := ha.channels hs
  obtain ⟨cx, ux, rx⟩ := x
  have hnew := hchannels cx
  unfold Carries
  by_cases hc : cx = c
  · subst hc
    rw [hnew, if_pos rfl, ha.channel?]
    constructor
    · rintro ⟨_, ⟨⟩, rfl, rfl, -⟩
      exact .inr rfl
    · rintro (⟨_, ⟨⟩, -, -, hj, -⟩ | h)
      · rw [ha.fresh] at hj
        cases hj
      · cases h
        exact ⟨_, rfl, rfl, rfl, by simp [Channel.isJoined, ha.assigned], ha.isOpen⟩
  · rw [hnew, if_neg hc]
    simp [hc, Server.channel?]

/-- A channel that is torn down loses its session, and no other one is touched. -/
theorem carries_of_closing {c : ChannelRef} (hclosing : ∀ channel, s'.channel? c = some channel →
    channel.isClosing = true) (hother : ∀ c', c' ≠ c → s'.channel? c' = s.channel? c')
    (x : Session) : s'.Carries x ↔ s.Carries x ∧ x.channel ≠ c := by
  by_cases hc : x.channel = c
  · simp only [hc, ne_eq, not_true_eq_false, and_false, iff_false]
    rintro ⟨channel, hchannel, -, -, -, hopen⟩
    rw [hc] at hchannel
    have hclosed := hclosing channel hchannel
    rw [hclosed] at hopen
    cases hopen
  · rw [Carries, hother _ hc]
    simp [Carries, hc]

/-- One move changes the open sessions in the way it changes the channels. -/
theorem Outcome.mem_next_iff (hs : s.hub.Sound) (ho : s.Outcome m a s')
    (hlive : ∀ x, x ∈ live ↔ s.Carries x) (x : Session) :
    x ∈ Session.next live (m, a) ↔ s'.Carries x := by
  have hleave : ∀ tier c calls, x ∈ Session.next live (.call (.leave tier c), .left calls) ↔
      s.Carries x ∧ x.channel ≠ c := by
    intro tier c calls
    rw [Session.next, List.mem_filter, hlive, decide_eq_true_iff]
    simp [Call.channel?, eq_comm]
  cases ho with
  | stray | refused | missed => exact hlive x
  | opened => exact (hlive x).trans (s.carries_openChannel x).symm
  | @admitted k c room user _ _ _ _ hk ha =>
    rw [ha.carries_iff hs, Session.next, List.mem_append, hlive, hk]
    simp
  | @leftBefore _ c channel hc hclosing =>
    rw [hleave, and_iff_left_iff_imp]
    rintro ⟨channel', hc', -, -, -, hopen⟩ rfl
    rw [hc] at hc'
    obtain rfl := Option.some.inj hc'
    rw [hclosing] at hopen
    cases hopen
  | @leftUnjoined _ c channel hc hopen hj =>
    have hchannels := channel?_beginClose hc
    rw [hleave]
    refine (carries_of_closing ?_ ?_ x).symm
    · intro channel' hc'
      have hmarked := (hchannels c).symm.trans hc'
      rw [if_pos rfl] at hmarked
      obtain rfl := Option.some.inj hmarked
      rfl
    · intro c' hne
      exact (hchannels c').trans (if_neg hne)
  | @left _ c channel b closed _ _ hd =>
    have hchannels := hd.channels
    rw [hleave]
    refine (carries_of_closing ?_ ?_ x).symm
    · intro channel' hc'
      rw [hchannels, if_pos rfl] at hc'
      obtain rfl := Option.some.inj hc'
      rfl
    · intro c' hne
      rw [hchannels, if_neg hne]
  | @offered now _ msg c _ =>
    refine (hlive x).trans (carries_of_mapMail
      ⟨Roster.mailOf c fun m => (m.offer (s.stamp now msg).1).2, ?_⟩ x).symm
    rw [withMail, stamp_hub]
  | queued =>
    refine (hlive x).trans (carries_of_mapMail ⟨fun _ m => m, ?_⟩ x).symm
    rw [Hub.broadcastAll_roster, Roster.mapMail_id]
  | taken | closed => exact (hlive x).trans (carries_of_mapMail ⟨_, rfl⟩ x).symm
  | @worked w => exact (hlive x).trans (carries_of_mapMail (hs.exists_mapMail_work w) x).symm

/-- The open sessions of a run are those that the channels carry. -/
theorem mem_sessions_iff (id : String) (options : ConnectionOptions) (buckets : BucketConfig)
    (generator : SequenceId.Generator) (ms : List Move) (x : Session) :
    x ∈ sessions ((new id options buckets generator).history ms) ↔
      ((new id options buckets generator).after ms).Carries x := by
  induction ms using List.reverseRecOn generalizing x with
  | nil =>
    constructor
    · nofun
    · rintro ⟨_, hc, -⟩
      cases hc
  | append_singleton ms m ih =>
    have hs := sound_after (s := new id options buckets generator) (Hub.sound_new buckets) ms
    rw [history_concat, after_concat, sessions, List.foldl_append]
    exact (step_outcome hs m).mem_next_iff hs ih x

/-! ## Consistency -/

/-- The records of a server tell what the open sessions tell. -/
structure Consistent (s : Server) (live : List Session) : Prop where
  /-- A registered room is stored under its own identifier, is not retired, lists nobody twice and
  is not empty, and lists the channels that have joined it as users of this bucket. -/
  rooms : ∀ (i : Nat) (b : Bucket) (id : RoomId) (r : RoomRef), s.hub.buckets[i]? = some b →
    b.lookupRoom id = some r → ∃ room, s.hub.roster.room? r = some room ∧ room.id = id ∧
      room.isDropped = false ∧ room.members.Nodup ∧ room.members ≠ [] ∧
      ∀ c, c ∈ room.members ↔ ∃ user, ⟨c, user, id⟩ ∈ live ∧ s.bucketOf user = i
  /-- A channel that has joined a room is listed in one room of the server, the one that the
  bucket of its user has registered for it, and names this room itself. -/
  seats : ∀ x ∈ live, x.room.isRoom = true → ∃ b r room,
    s.hub.buckets[s.bucketOf x.user]? = some b ∧ b.lookupRoom x.room = some r ∧
      s.hub.roster.linkedRoom? x.channel = some (r, room) ∧
      ∀ r', (∃ room', s.hub.roster.room? r' = some room' ∧ x.channel ∈ room'.members) ↔ r' = r
  /-- A channel that has joined without a room is in none. -/
  roomless : ∀ x ∈ live, x.room.isRoom = false → s.hub.roster.linkedRoom? x.channel = none ∧
    ∀ r room, s.hub.roster.room? r = some room → x.channel ∉ room.members
  /-- A user is registered in the user's bucket, with a channel that carries the user. -/
  users : ∀ (i : Nat) (b : Bucket) (user : UserId) (c : ChannelRef), s.hub.buckets[i]? = some b →
    b.lookupUser user = some c → i = s.bucketOf user ∧
      ∃ channel, s.channel? c = some channel ∧ channel.user = user

theorem mem_members_iff {r : RoomRef} {c : ChannelRef} : c ∈ s.hub.roster.members r ↔
    ∃ room, s.hub.roster.room? r = some room ∧ c ∈ room.members := by
  rw [Roster.members]
  cases s.hub.roster.room? r <;> simp

/-- A channel without a link is in no room. -/
theorem unseated (hs : s.hub.Sound) {c : ChannelRef} {channel : Channel}
    (hc : s.channel? c = some channel) (hl : channel.link = none) :
    s.hub.roster.linkedRoom? c = none ∧
      ∀ r room, s.hub.roster.room? r = some room → c ∉ room.members := by
  have hlink : s.hub.roster.link? c = none := by
    rw [Roster.link?_of_channel? hc, hl]
  constructor
  · rw [Roster.linkedRoom?_eq, hlink, Option.bind_none]
  · intro r room hroom hmem
    obtain ⟨slot, hseat⟩ := hs.coherent.linked.mem_members.mp
      (mem_members_iff.mpr ⟨room, hroom, hmem⟩)
    rw [hlink] at hseat
    cases hseat

theorem consistent_of_sound (hs : s.hub.Sound) (hlive : ∀ x, x ∈ live ↔ s.Carries x) :
    s.Consistent live where
  rooms i b id r hb hr := by
    have hat : s.hub.roomAt i id = some r := (Hub.roomAt_of_bucket hb id).trans hr
    obtain ⟨room, hroom, hid, hd, hne⟩ := hs.coherent.indexed i id r hat
    have hmembers : s.hub.membersOf i id = room.members := by
      rw [Hub.membersOf, hat, Option.elim_some, Roster.members, hroom, Option.elim_some]
    have hnodup := hs.nodup_membersOf i id
    rw [hmembers] at hnodup
    have hreal : id.isRoom = true := by
      obtain ⟨c', hc'⟩ := List.exists_mem_of_ne_nil _ hne
      rw [← hmembers] at hc'
      exact (hs.mem_membersOf.mp hc').1
    refine ⟨room, hroom, hid, hd, hnodup, hne, fun c => ?_⟩
    rw [← hmembers, hs.mem_membersOf]
    constructor
    · rintro ⟨-, channel, hc, hj, hopen, hroom, hi⟩
      exact ⟨channel.user, (hlive _).mpr ⟨channel, hc, rfl, hroom, hj, hopen⟩, hi⟩
    · rintro ⟨user, hx, hi⟩
      obtain ⟨channel, hc, hu, hroom, hj, hopen⟩ := (hlive _).mp hx
      exact ⟨hreal, channel, hc, hj, hopen, hroom, by rw [hu]; exact hi⟩
  seats x hx hroom := by
    obtain ⟨channel, hc, hu, hr, hj, hopen⟩ := (hlive x).mp hx
    have hreal : channel.room.isRoom = true := by rw [hr, hroom]
    have hsome := ((hs.settled _).link_iff channel hc).mpr ⟨hj, hopen, hreal⟩
    obtain ⟨link, hl⟩ := Option.isSome_iff_exists.mp hsome
    obtain ⟨-, -, hat⟩ := hs.coherent.placed _ channel link hc hl
    obtain ⟨room, hlinked, -⟩ := hs.coherent.indexed _ _ _ hat
    rw [hu, hr] at hat
    obtain ⟨b, hb⟩ := hs.exists_bucket x.user
    have hindex : b.lookupRoom x.room = some link.room :=
      (Hub.roomAt_of_bucket hb _).symm.trans hat
    have hlink : s.hub.roster.link? x.channel = some link := by
      rw [Roster.link?_of_channel? hc, hl]
    have hlinkedRoom : s.hub.roster.linkedRoom? x.channel = some (link.room, room) := by
      rw [Roster.linkedRoom?_eq, hlink, Option.bind_some, hlinked, Option.map_some]
    refine ⟨b, link.room, room, hb, hindex, hlinkedRoom, fun r' => ?_⟩
    rw [← mem_members_iff, hs.coherent.linked.mem_members, hlink]
    constructor
    · rintro ⟨slot, ⟨⟩⟩
      rfl
    · rintro rfl
      exact ⟨link.slot, rfl⟩
  roomless x hx hroom := by
    obtain ⟨channel, hc, hu, hr, hj, hopen⟩ := (hlive x).mp hx
    have hl : channel.link = none := by
      rw [← Option.not_isSome_iff_eq_none, (hs.settled _).link_iff channel hc]
      rintro ⟨-, -, hreal⟩
      rw [hr, hroom] at hreal
      cases hreal
    exact unseated hs hc hl
  users i b user c hb hu := by
    obtain ⟨hi, -, hchannel⟩ := hs.coherent.registered i user c
      ((Hub.userAt_of_bucket hb user).trans hu)
    exact ⟨hi, hchannel⟩

/-- Whatever is done to a server that started empty, its records tell what was done. -/
theorem consistent_after (id : String) (options : ConnectionOptions) (buckets : BucketConfig)
    (generator : SequenceId.Generator) (ms : List Move) :
    ((new id options buckets generator).after ms).Consistent
      (sessions ((new id options buckets generator).history ms)) :=
  consistent_of_sound (sound_after (Hub.sound_new buckets) ms)
    (mem_sessions_iff id options buckets generator ms)

end Server

end ChatRelay
