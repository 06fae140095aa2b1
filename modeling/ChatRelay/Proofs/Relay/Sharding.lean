import ChatRelay.Proofs.Membership.Lockstep
import ChatRelay.Proofs.Relay.Outcome

/-!
# The number of buckets does not show

Two servers that differ in the number of their buckets answer every call alike, put the same
messages into every mailbox and count the same users, whatever is called and whenever the workers
run. The relation that carries the proof is `Alike`: the channels are the same but for the places
they have in rooms, the users are registered with the same channels, and the queues of the buckets
are in lockstep.

Workers are named by their buckets, so single steps of work mean nothing to the other server. What
both can be told to do is a round: every worker that has jobs empties its queue, in the order in
which the workers got their first job.
-/

namespace ChatRelay

/-- A call, or a round of the workers. -/
inductive Turn where
  | call (k : Call)
  | round

namespace Server

/-- One turn and its answer. -/
def turn (s : Server) : Turn → Answer × Server
  | .call k => s.step (.call k)
  | .round => (.done, s.runWorkers)

/-- The answers of a list of turns, and the server after them. -/
def play (s : Server) : List Turn → List Answer × Server
  | [] => ([], s)
  | t :: ts => ((s.turn t).1 :: ((s.turn t).2.play ts).1, ((s.turn t).2.play ts).2)

/-- Two servers that serve the same users over the same connections, however they are spread over
buckets. -/
structure Alike (s t : Server) : Prop where
  lockstep : s.hub.Lockstep t.hub
  channels : ∀ c, ∃ link, t.channel? c = (s.channel? c).map fun ch => { ch with link }
  users : ∀ user, t.lookupUser user = s.lookupUser user
  rest : t = { s with hub := t.hub }

namespace Alike

variable {s t s' t' : Server} {c : ChannelRef} {channel : Channel}

theorem exists_channel (ha : Alike s t) (hc : s.channel? c = some channel) :
    ∃ link, t.channel? c = some { channel with link } := by
  obtain ⟨link, hlink⟩ := ha.channels c
  rw [hc] at hlink
  exact ⟨link, hlink⟩

theorem isStray (ha : Alike s t) (k : Call) : t.isStray k = s.isStray k := by
  unfold Server.isStray
  cases k.channel? with
  | none => rfl
  | some c =>
    obtain ⟨link, hlink⟩ := ha.channels c
    rw [Option.any_some, Option.any_some, hlink, Option.isNone_map]

/-- The next channel gets the same name. -/
theorem length_channels (ha : Alike s t) :
    t.hub.roster.channels.length = s.hub.roster.channels.length := by
  have hnone : ∀ i : Nat, t.hub.roster.channels[i]? = none ↔ s.hub.roster.channels[i]? = none := by
    intro i
    obtain ⟨link, hlink⟩ := ha.channels ⟨i⟩
    have hmap : t.hub.roster.channels[i]? =
        (s.hub.roster.channels[i]?).map fun ch => { ch with link } := hlink
    rw [hmap, Option.map_eq_none_iff]
  have ht : t.hub.roster.channels.length ≤ s.hub.roster.channels.length := by
    rw [← List.getElem?_eq_none_iff, hnone]
    exact List.getElem?_eq_none (Nat.le_refl _)
  have hs : s.hub.roster.channels.length ≤ t.hub.roster.channels.length := by
    rw [← List.getElem?_eq_none_iff, ← hnone]
    exact List.getElem?_eq_none (Nat.le_refl _)
  omega

/-! ## One turn -/

/-- Both servers may change their mailboxes by the same rule. -/
theorem withMail (ha : Alike s t) (f : ChannelRef → Mailbox → Mailbox) :
    Alike (s.withMail f) (t.withMail f) where
  lockstep := ha.lockstep.congr ⟨rfl, fun _ => rfl⟩ ⟨rfl, fun _ => rfl⟩
  channels c := by
    obtain ⟨link, hlink⟩ := ha.channels c
    refine ⟨link, ?_⟩
    change (t.hub.roster.mapMail f).channel? c = ((s.hub.roster.mapMail f).channel? c).map _
    rw [Roster.channel?_mapMail, Roster.channel?_mapMail]
    change (t.channel? c).map _ = ((s.channel? c).map _).map _
    rw [hlink, Option.map_map, Option.map_map]
    rfl
  users := ha.users
  rest := by
    rw [ha.rest]
    rfl

theorem stamp (ha : Alike s t) (now : Nat) (msg : Msg) :
    (t.stamp now msg).1 = (s.stamp now msg).1 ∧
      Alike (s.stamp now msg).2 (t.stamp now msg).2 := by
  have hgen : t.generator = s.generator := by rw [ha.rest]
  have hmsg : (t.stamp now msg).1 = (s.stamp now msg).1 := by
    unfold Server.stamp
    rw [hgen]
    split <;> rfl
  have hnext : (t.stamp now msg).2.generator = (s.stamp now msg).2.generator := by
    unfold Server.stamp
    rw [hgen]
    split
    next => rfl
    next => exact hgen
  refine ⟨hmsg, ?_, ?_, ?_, ?_⟩
  · rw [stamp_hub, stamp_hub]
    exact ha.lockstep
  · intro c
    simpa only [channel?_stamp] using ha.channels c
  · intro user
    simpa only [Server.lookupUser, bucketOf, stamp_hub] using ha.users user
  · rw [stamp_snd t, stamp_snd s, hnext, ha.rest]

/-- A channel that both servers admit for the same user and room is registered with both. -/
theorem admits (ha : Alike s t) (hs : s.hub.Sound) (ht : t.hub.Sound) {user : UserId}
    {room : RoomId} {b d : Bucket} {link : Option Link} (hsa : s.Admits c user room b channel s')
    (hta : t.Admits c user room d { channel with link } t') : Alike s' t' := by
  obtain ⟨linkₛ, hchannelsₛ⟩ := hsa.channels hs
  obtain ⟨linkₜ, hchannelsₜ⟩ := hta.channels ht
  refine ⟨?_, ?_, ?_, ?_⟩
  · exact ha.lockstep.congr (hsa.joined.sameQueues hsa.bucket) (hta.joined.sameQueues hta.bucket)
  · intro c'
    rw [hchannelsₛ, hchannelsₜ]
    split
    next => exact ⟨linkₜ, rfl⟩
    next => exact ha.channels c'
  · intro user'
    rw [hsa.lookupUser, hta.lookupUser, ha.users]
  · rw [hta.rest, hsa.rest, ha.rest]

theorem dismisses (ha : Alike s t) (hs : s.hub.Sound) (ht : t.hub.Sound) {b d : Bucket}
    {closed closed' : Bool} {link : Option Link} (hsd : s.Dismisses c b channel closed s')
    (htd : t.Dismisses c d { channel with link } closed' t') : Alike s' t' := by
  refine ⟨?_, ?_, ?_, ?_⟩
  · have hsq := hsd.removed.sameQueues hsd.bucket
    have htq := htd.removed.sameQueues htd.bucket
    exact ha.lockstep.congr ⟨hsq.awake, hsq.buckets⟩ ⟨htq.awake, htq.buckets⟩
  · intro c'
    rw [hsd.channels, htd.channels]
    split
    next => exact ⟨none, rfl⟩
    next => exact ha.channels c'
  · intro user
    rw [hsd.lookupUser hs, htd.lookupUser ht, ha.users]
  · rw [htd.rest, hsd.rest, ha.rest]

theorem beginClose (ha : Alike s t) (hc : s.channel? c = some channel) : Alike
    { s with hub := { s.hub with roster := (s.hub.roster.beginClose c).2 } }
    { t with hub := { t.hub with roster := (t.hub.roster.beginClose c).2 } } where
  lockstep := ha.lockstep.congr ⟨rfl, fun _ => rfl⟩ ⟨rfl, fun _ => rfl⟩
  channels c' := by
    obtain ⟨link, hlink⟩ := ha.exists_channel hc
    change ∃ link, (t.hub.roster.beginClose c).2.channel? c' =
      ((s.hub.roster.beginClose c).2.channel? c').map _
    rw [channel?_beginClose hc, channel?_beginClose hlink]
    split
    next => exact ⟨link, rfl⟩
    next => exact ha.channels c'
  users := ha.users
  rest := by
    rw [ha.rest]

theorem openChannel (ha : Alike s t) :
    t.openChannel.1 = s.openChannel.1 ∧ Alike s.openChannel.2 t.openChannel.2 := by
  have hname : t.openChannel.1 = s.openChannel.1 := congrArg ChannelRef.mk ha.length_channels
  have hnew : Channel.new (t.connections + 1) t.options.broadcastSize =
      .new (s.connections + 1) s.options.broadcastSize := by rw [ha.rest]
  refine ⟨hname, ?_, ?_, ha.users, ?_⟩
  · exact ha.lockstep.congr ⟨rfl, fun _ => rfl⟩ ⟨rfl, fun _ => rfl⟩
  · intro c
    rw [channel?_openChannel, channel?_openChannel, hname, hnew]
    split
    next => exact ⟨none, rfl⟩
    next => exact ha.channels c
  · rw [ha.rest]
    rfl

theorem finishJoin (ha : Alike s t) (hs : s.hub.Sound) (ht : t.hub.Sound)
    (hc : s.channel? c = some channel) (room : RoomId) (answer : Except TierError UserId) :
    (∃ e, s.finishJoin c room answer = .error e ∧ t.finishJoin c room answer = .error e) ∨
      ∃ user s' t', s.finishJoin c room answer = .ok (user, s') ∧
        t.finishJoin c room answer = .ok (user, t') ∧ Alike s' t' := by
  obtain ⟨link, hlink⟩ := ha.exists_channel hc
  have hverdict : verdict { channel with link } answer = verdict channel answer := rfl
  rcases finishJoin_cases hs hc room answer with ⟨e, hv, he⟩ | ⟨user, b, s', hv, he, hsa⟩
  · rcases finishJoin_cases ht hlink room answer with ⟨e', hv', he'⟩ | ⟨user', d, t', hv', -⟩
    · rw [hverdict, hv] at hv'
      obtain rfl := Except.error.inj hv'
      exact .inl ⟨e, he, he'⟩
    · rw [hverdict, hv] at hv'
      cases hv'
  · rcases finishJoin_cases ht hlink room answer with ⟨e', hv', -⟩ | ⟨user', d, t', hv', he', hta⟩
    · rw [hverdict, hv] at hv'
      cases hv'
    · rw [hverdict, hv] at hv'
      obtain rfl := Except.ok.inj hv'
      exact .inr ⟨user, s', t', he, he', ha.admits hs ht hsa hta⟩

theorem join (ha : Alike s t) (hs : s.hub.Sound) (ht : t.hub.Sound)
    (hc : s.channel? c = some channel) (tier : BusinessTier) (token : String) (room : RoomId) :
    ∃ outcome calls s' t', s.join tier c token room = (outcome, calls, s') ∧
      t.join tier c token room = (outcome, calls, t') ∧ Alike s' t' := by
  have hrequest : t.joinRequest token room = s.joinRequest token room := by
    rw [ha.rest]
    rfl
  unfold Server.join
  rw [hrequest]
  cases s.joinRequest token room with
  | error e => exact ⟨_, _, s, t, rfl, rfl, ha⟩
  | ok request =>
    dsimp only
    rcases ha.finishJoin hs ht hc room (tier.connect request) with
      ⟨e, he, he'⟩ | ⟨user, s', t', he, he', ha'⟩
    · rw [he, he']
      exact ⟨_, _, s, t, rfl, rfl, ha⟩
    · rw [he, he']
      exact ⟨_, _, s', t', rfl, rfl, ha'⟩

theorem disconnect (ha : Alike s t) (hs : s.hub.Sound) (ht : t.hub.Sound)
    (hc : s.channel? c = some channel) :
    ∃ request s' t', s.disconnect c = (request, s') ∧ t.disconnect c = (request, t') ∧
      Alike s' t' := by
  obtain ⟨link, hlink⟩ := ha.exists_channel hc
  -- Both servers look at the same marks of the channel; only its link may differ.
  cases hcl : channel.isClosing with
  | true => exact ⟨none, s, t, disconnect_of_closing hc hcl, disconnect_of_closing hlink hcl, ha⟩
  | false =>
    cases hj : channel.isJoined with
    | false =>
      exact ⟨none, _, _, disconnect_of_unjoined hc hcl hj, disconnect_of_unjoined hlink hcl hj,
        ha.beginClose hc⟩
    | true =>
      obtain ⟨b, closed, s', hsd, he⟩ := disconnect_of_joined hs hc hcl hj
      obtain ⟨d, closed', t', htd, he'⟩ := disconnect_of_joined ht hlink hcl hj
      exact ⟨_, s', t', he, he', ha.dismisses hs ht hsd htd⟩

theorem pushUser (ha : Alike s t) (hs : s.hub.Sound) (now : Nat) (user : UserId) (msg : Msg) :
    (s.pushUser now user msg).1 = (t.pushUser now user msg).1 ∧
      Alike (s.pushUser now user msg).2 (t.pushUser now user msg).2 := by
  obtain ⟨hmsg, hstamped⟩ := ha.stamp now msg
  cases hu : s.lookupUser user with
  | none =>
    have hu' : t.lookupUser user = none := (ha.users user).trans hu
    rw [pushUser_of_none hu, pushUser_of_none hu']
    exact ⟨rfl, ha⟩
  | some c =>
    obtain ⟨channel, hc, -⟩ := exists_channel_of_lookupUser hs hu
    obtain ⟨link, hlink⟩ := ha.exists_channel hc
    have hu' : t.lookupUser user = some c := (ha.users user).trans hu
    rw [pushUser_eq hc hu, pushUser_eq hlink hu', hmsg]
    exact ⟨rfl, hstamped.withMail _⟩

theorem roomPush (ha : Alike s t) (now : Nat) (room : RoomId) (msg : Msg) :
    Alike { (s.stamp now msg).2 with hub := s.hub.broadcastAll room (s.stamp now msg).1 }
      { (t.stamp now msg).2 with hub := t.hub.broadcastAll room (t.stamp now msg).1 } := by
  obtain ⟨hmsg, hstamped⟩ := ha.stamp now msg
  refine ⟨?_, ?_, ?_, ?_⟩
  · rw [hmsg]
    exact ha.lockstep.broadcastAll room _
  · intro c
    change ∃ link, (t.hub.broadcastAll room _).roster.channel? c =
      ((s.hub.broadcastAll room _).roster.channel? c).map _
    rw [Hub.broadcastAll_roster, Hub.broadcastAll_roster]
    exact ha.channels c
  · intro user
    change (t.hub.broadcastAll room _).userAt ((t.hub.broadcastAll room _).place user) user =
      (s.hub.broadcastAll room _).userAt ((s.hub.broadcastAll room _).place user) user
    rw [Hub.userAt_broadcastAll, Hub.userAt_broadcastAll, Hub.place, Hub.place,
      Hub.length_buckets_broadcastAll, Hub.length_buckets_broadcastAll]
    exact ha.users user
  · rw [hstamped.rest]

/-- A round offers a channel the same messages, whatever the bucket of its user. -/
theorem runWorkers (ha : Alike s t) (hs : s.hub.Sound) (hst : s.hub.Staffed) (ht : t.hub.Sound)
    (htt : t.hub.Staffed) : Alike s.runWorkers t.runWorkers where
  lockstep := ha.lockstep.run hst htt
  channels c := by
    change ∃ link, t.hub.run.roster.channel? c = (s.hub.run.roster.channel? c).map _
    rw [hst.run_channel hs, htt.run_channel ht]
    cases hc : s.hub.roster.channel? c with
    | none =>
      obtain ⟨link, hlink⟩ := ha.channels c
      rw [channel?, channel?, hc, Option.map_none] at hlink
      rw [hlink]
      exact ⟨none, rfl⟩
    | some channel =>
      obtain ⟨link, hlink⟩ := ha.exists_channel hc
      have hlink' : t.hub.roster.channel? c = some { channel with link } := hlink
      obtain ⟨b, hb⟩ := hs.exists_bucket channel.user
      obtain ⟨d, hd⟩ := ht.exists_bucket channel.user
      have hjobs := ha.lockstep.jobsAt (Hub.lt_of_bucket hb) (Hub.lt_of_bucket hd)
      have hmember : ∀ id, c ∈ t.hub.membersOf (t.hub.place channel.user) id ↔
          c ∈ s.hub.membersOf (s.hub.place channel.user) id := by
        intro id
        rw [ht.mem_membersOf, hs.mem_membersOf]
        constructor
        · rintro ⟨hid, channel', hc', hj, hopen, hroom, -⟩
          rw [hlink'] at hc'
          obtain rfl := Option.some.inj hc'
          exact ⟨hid, channel, hc, hj, hopen, hroom, rfl⟩
        · rintro ⟨hid, channel', hc', hj, hopen, hroom, -⟩
          rw [hc] at hc'
          obtain rfl := Option.some.inj hc'
          exact ⟨hid, _, hlink', hj, hopen, hroom, rfl⟩
      refine ⟨link, ?_⟩
      rw [hlink', Option.map_some, Option.map_some, Option.map_some, hjobs,
        Hub.offerAll_congr hmember]
  users user := by
    change t.hub.run.userAt (t.hub.run.place user) user =
      s.hub.run.userAt (s.hub.run.place user) user
    rw [hst.userAt_run, htt.userAt_run, Hub.place, Hub.place, hst.length_buckets_run,
      htt.length_buckets_run]
    exact ha.users user
  rest := by
    rw [ha.rest]
    rfl

theorem perform (ha : Alike s t) (hs : s.hub.Sound) (ht : t.hub.Sound) {k : Call}
    (hk : s.isStray k = false) :
    (s.perform k).1 = (t.perform k).1 ∧ Alike (s.perform k).2 (t.perform k).2 := by
  cases k with
  | openChannel =>
    obtain ⟨hname, ha'⟩ := ha.openChannel
    exact ⟨congrArg Answer.opened hname.symm, ha'⟩
  | join tier c token room =>
    obtain ⟨channel, hc⟩ := exists_channel_of_isStray hk rfl
    obtain ⟨outcome, calls, s', t', he, he', ha'⟩ := ha.join hs ht hc tier token room
    rw [Server.perform, Server.perform, he, he']
    exact ⟨rfl, ha'⟩
  | finishJoin c room answer =>
    obtain ⟨channel, hc⟩ := exists_channel_of_isStray hk rfl
    rcases ha.finishJoin hs ht hc room answer with ⟨e, he, he'⟩ | ⟨user, s', t', he, he', ha'⟩
    · rw [Server.perform, Server.perform, he, he']
      exact ⟨rfl, ha⟩
    · rw [Server.perform, Server.perform, he, he']
      exact ⟨rfl, ha'⟩
  | leave tier c =>
    obtain ⟨channel, hc⟩ := exists_channel_of_isStray hk rfl
    obtain ⟨request, s', t', he, he', ha'⟩ := ha.disconnect hs ht hc
    rw [Server.perform, Server.perform, leave, leave, he, he']
    exact ⟨rfl, ha'⟩
  | pushUser now user msg =>
    obtain ⟨hd, ha'⟩ := ha.pushUser hs now user msg
    exact ⟨congrArg Answer.pushed hd, ha'⟩
  | pushRoom | pushRoomCount | pushRoomInfo =>
    rw [perform_of_roomPush rfl, perform_of_roomPush rfl]
    exact ⟨rfl, ha.roomPush _ _ _⟩
  | take c n =>
    obtain ⟨channel, hc⟩ := exists_channel_of_isStray hk rfl
    obtain ⟨link, hlink⟩ := ha.exists_channel hc
    rw [Server.perform, Server.perform, takeMail_eq hc, takeMail_eq hlink]
    exact ⟨rfl, ha.withMail _⟩
  | drain c =>
    obtain ⟨channel, hc⟩ := exists_channel_of_isStray hk rfl
    obtain ⟨link, hlink⟩ := ha.exists_channel hc
    rw [Server.perform, Server.perform, drain, drain, drain_eq_takeMail hc,
      drain_eq_takeMail hlink, takeMail_eq hc, takeMail_eq hlink]
    exact ⟨rfl, ha.withMail _⟩
  | closeMailbox c =>
    rw [Server.perform, Server.perform, closeMailbox, closeMailbox, Roster.closeMailbox_eq,
      Roster.closeMailbox_eq]
    exact ⟨rfl, ha.withMail _⟩

theorem turn (ha : Alike s t) (hs : s.hub.Sound) (hst : s.hub.Staffed) (ht : t.hub.Sound)
    (htt : t.hub.Staffed) (x : Turn) :
    (s.turn x).1 = (t.turn x).1 ∧ Alike (s.turn x).2 (t.turn x).2 := by
  cases x with
  | round => exact ⟨rfl, ha.runWorkers hs hst ht htt⟩
  | call k =>
    rw [Server.turn, Server.turn, step, step, ha.isStray]
    cases hk : s.isStray k with
    | true => exact ⟨rfl, ha⟩
    | false => exact ha.perform hs ht hk

end Alike

theorem sound_turn {s : Server} (hs : s.hub.Sound) (hst : s.hub.Staffed) (x : Turn) :
    (s.turn x).2.hub.Sound ∧ (s.turn x).2.hub.Staffed := by
  cases x with
  | round => exact ⟨hs.run hst, hst.run⟩
  | call k => exact ⟨(step_outcome hs _).sound hs, staffed_step hs hst _⟩

theorem Alike.play {s t : Server} (ha : Alike s t) (hs : s.hub.Sound) (hst : s.hub.Staffed)
    (ht : t.hub.Sound) (htt : t.hub.Staffed) (xs : List Turn) :
    (s.play xs).1 = (t.play xs).1 ∧ Alike (s.play xs).2 (t.play xs).2 ∧
      (s.play xs).2.hub.Sound ∧ (t.play xs).2.hub.Sound := by
  induction xs generalizing s t with
  | nil => exact ⟨rfl, ha, hs, ht⟩
  | cons x xs ih =>
    obtain ⟨hanswer, ha'⟩ := ha.turn hs hst ht htt x
    obtain ⟨hs', hst'⟩ := sound_turn hs hst x
    obtain ⟨ht', htt'⟩ := sound_turn ht htt x
    obtain ⟨hanswers, hrest⟩ := ih ha' hs' hst' ht' htt'
    refine ⟨?_, hrest⟩
    rw [Server.play, Server.play, hanswer, hanswers]

theorem alike_new (id : String) (options : ConnectionOptions) (config : BucketConfig)
    (generator : SequenceId.Generator) (n m : Nat) :
    Alike (new id options { config with count := n } generator)
      (new id options { config with count := m } generator) where
  lockstep := Hub.Lockstep.new config n m
  channels _ := ⟨none, rfl⟩
  users user := (Hub.userAt_new _ _ user).trans (Hub.userAt_new _ _ user).symm
  rest := rfl

/-- However many buckets there are, one for instance, all calls are answered alike, all mailboxes
hold the same messages, and the same number of users is counted. -/
theorem sharding_unobservable (id : String) (options : ConnectionOptions) (config : BucketConfig)
    (generator : SequenceId.Generator) (n m : Nat) (xs : List Turn) :
    let s := (new id options { config with count := n } generator).play xs
    let t := (new id options { config with count := m } generator).play xs
    s.1 = t.1 ∧
      (∀ c, (s.2.channel? c).map Channel.mailbox = (t.2.channel? c).map Channel.mailbox) ∧
      s.2.stats.channels = t.2.stats.channels := by
  intro s t
  obtain ⟨hanswers, ha, hs, ht⟩ := (alike_new id options config generator n m).play
    (Hub.sound_new _) (Hub.staffed_new _) (Hub.sound_new _) (Hub.staffed_new _) xs
  refine ⟨hanswers, fun c => ?_, hs.channelCount_eq ht fun user => (ha.users user).symm⟩
  obtain ⟨link, hlink⟩ := ha.channels c
  rw [hlink, Option.map_map]
  rfl

end Server

end ChatRelay
