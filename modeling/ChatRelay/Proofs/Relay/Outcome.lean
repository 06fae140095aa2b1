import ChatRelay.Proofs.Membership.Registration
import ChatRelay.Proofs.Membership.Rounds
import ChatRelay.Proofs.Relay.Run

/-!
# What a move can do

`Outcome` lists, for a server whose hub is sound, everything that one move can lead to and how it is
answered. From it follow the facts that hold in every reachable state: the hub is sound, and awake
are exactly the workers that have jobs.
-/

namespace ChatRelay.Server

variable {s s' : Server} {c : ChannelRef} {channel : Channel} {user : UserId} {room : RoomId}
  {b : Bucket} {closed : Bool}

/-! ## Joining and leaving -/

theorem channel?_openChannel (s : Server) (c : ChannelRef) : s.openChannel.2.channel? c =
    if c = s.openChannel.1 then some (.new (s.connections + 1) s.options.broadcastSize)
    else s.channel? c :=
  Roster.channel?_addChannel ..

/-- A connection is opened under a name that no channel has. -/
theorem channel?_openChannel_fst (s : Server) : s.channel? s.openChannel.1 = none :=
  s.hub.roster.channel?_addChannel_fst (.new (s.connections + 1) s.options.broadcastSize)

/-- The channel `c`, which has neither joined nor begun its teardown, is registered for `user` with
`room`, and nothing but the hub changes. -/
structure Admits (s : Server) (c : ChannelRef) (user : UserId) (room : RoomId) (b : Bucket)
    (channel : Channel) (s' : Server) : Prop where
  channel? : s.channel? c = some channel
  fresh : channel.isJoined = false
  isOpen : channel.isClosing = false
  assigned : user.isUnassigned = false
  bucket : s.hub.buckets[s.bucketOf user]? = some b
  joined : s.hub.Joined (s.bucketOf user) b user room c s'.hub
  rest : s' = { s with hub := s'.hub }

/-- Only the channel that is admitted changes: it gets user, room and, for a real room, a link. -/
theorem Admits.channels (ha : s.Admits c user room b channel s') (hs : s.hub.Sound) :
    ∃ link, ∀ c', s'.channel? c' =
      if c' = c then some { channel with user, room, link } else s.channel? c' := by
  obtain ⟨link, -, hchannels⟩ :=
    ha.joined.channel? ha.channel? (hs.coherent.link_eq_none ha.channel? ha.fresh)
  exact ⟨link, hchannels⟩

/-- The channel that is admitted is now the one that is registered for its user. -/
theorem Admits.lookupUser (ha : s.Admits c user room b channel s') (user' : UserId) :
    s'.lookupUser user' = if user' = user then some c else s.lookupUser user' := by
  have hplace := ha.joined.place user'
  change s'.hub.userAt (s'.hub.place user') user' = _
  rw [hplace, ha.joined.userAt ha.bucket]
  by_cases hu : user' = user
  · have hplaces : s.hub.place user' = s.bucketOf user := by
      rw [hu]
      rfl
    rw [if_pos ⟨hplaces, hu⟩, if_pos hu]
  · rw [if_neg (fun h => hu h.2), if_neg hu]
    rfl

/-- What becomes of a join, by the channel that joins and the answer of the business tier. -/
def verdict (channel : Channel) : Except TierError UserId → Except RequestError UserId
  | .error e => .error (.tier e)
  | .ok user =>
    if user.isUnassigned then .error .rejected
    else if channel.isJoined then .error (.bucket (.alreadyJoined channel.connId))
    else if channel.isClosing then .error (.bucket (.closing channel.connId))
    else .ok user

/-- A join is refused or it admits the channel, as the verdict says. -/
theorem finishJoin_cases (hs : s.hub.Sound) (hc : s.channel? c = some channel) (room : RoomId)
    (answer : Except TierError UserId) :
    (∃ e, verdict channel answer = .error e ∧ s.finishJoin c room answer = .error e) ∨
      ∃ user b s', verdict channel answer = .ok user ∧
        s.finishJoin c room answer = .ok (user, s') ∧ s.Admits c user room b channel s' := by
  cases answer with
  | error e => exact .inl ⟨_, rfl, rfl⟩
  | ok user =>
    cases hu : user.isUnassigned with
    | true =>
      left
      refine ⟨.rejected, ?_, ?_⟩
      · simp only [verdict, hu, if_true]
      · simp only [finishJoin, hu, if_true]
    | false =>
      obtain ⟨b, hb⟩ := hs.exists_bucket user
      have hput := hs.coherent.put_cases hb hc user room
      have hregister : s.register user room c =
          (s.hub.put (s.hub.place user) user room c).map fun hub => { s with hub } := rfl
      rcases hput with ⟨hj, he⟩ | ⟨hj, hcl, he⟩ | ⟨hj, hcl, h', hok, hjoined⟩
      · left
        refine ⟨.bucket (.alreadyJoined channel.connId), ?_, ?_⟩
        · simp [verdict, hu, hj]
        · simp [finishJoin, hu, hregister, he, Except.map]
      · left
        refine ⟨.bucket (.closing channel.connId), ?_, ?_⟩
        · simp [verdict, hu, hj, hcl]
        · simp [finishJoin, hu, hregister, he, Except.map]
      · right
        refine ⟨user, b, { s with hub := h' }, ?_, ?_, hc, hj, hcl, hu, hb, hjoined, rfl⟩
        · simp [verdict, hu, hj, hcl]
        · simp [finishJoin, hu, hregister, hok, Except.map]

theorem join_cases (hs : s.hub.Sound) (hc : s.channel? c = some channel) (tier : BusinessTier)
    (token : String) (room : RoomId) :
    (∃ e calls, s.join tier c token room = (.error e, calls, s)) ∨
      ∃ user b calls s', s.join tier c token room = (.ok user, calls, s') ∧
        s.Admits c user room b channel s' := by
  unfold join
  cases hr : s.joinRequest token room with
  | error e => exact .inl ⟨e, [], rfl⟩
  | ok request =>
    rcases finishJoin_cases hs hc room (tier.connect request) with
      ⟨e, -, he⟩ | ⟨user, b, s', -, hok, hadmits⟩
    · left
      refine ⟨e, [called (.connect request) (tier.connect request)], ?_⟩
      simp only [he]
    · right
      refine ⟨user, b, [called (.connect request) (tier.connect request)], s', ?_, hadmits⟩
      simp only [hok]

/-- The teardown of `c` has begun now, and its registration is undone. -/
structure Dismisses (s : Server) (c : ChannelRef) (b : Bucket) (channel : Channel) (closed : Bool)
    (s' : Server) : Prop where
  channel? : s.channel? c = some channel
  joined : channel.isJoined = true
  isOpen : channel.isClosing = false
  bucket : s.hub.buckets[s.bucketOf channel.user]? = some b
  removed : ({ s.hub with roster := (s.hub.roster.beginClose c).2 } : Hub).Removed
    (s.bucketOf channel.user) b c { channel with isClosing := true } closed s'.hub
  sound : s'.hub.Sound
  rest : s' = { s with hub := s'.hub }

theorem channel?_beginClose (hc : s.channel? c = some channel) (c' : ChannelRef) :
    (s.hub.roster.beginClose c).2.channel? c' =
      if c' = c then some { channel with isClosing := true } else s.channel? c' := by
  rw [Roster.beginClose_snd, Roster.channel?_modifyChannel]
  split
  next he =>
    rw [he, show s.hub.roster.channel? c = some channel from hc]
    rfl
  next => rfl

/-- Only the channel that is dismissed changes. -/
theorem Dismisses.channels (hd : s.Dismisses c b channel closed s') (c' : ChannelRef) :
    s'.channel? c' = if c' = c then some { channel with isClosing := true, link := none }
      else s.channel? c' := by
  have hmarked := channel?_beginClose hd.channel?
  refine (hd.removed.channel? ((hmarked c).trans (if_pos rfl)) c').trans ?_
  split
  next => rfl
  next hne => exact (hmarked c').trans (if_neg hne)

/-- A user whose channel is dismissed is registered no more. -/
theorem Dismisses.lookupUser (hs : s.hub.Sound) (hd : s.Dismisses c b channel closed s')
    (user : UserId) :
    s'.lookupUser user = if s.lookupUser user = some c then none else s.lookupUser user := by
  have hmarked := (channel?_beginClose hd.channel? c).trans (if_pos rfl)
  have husers := hd.removed.userAt (hs.beginClose c).1 hd.bucket hmarked rfl
  change s'.hub.userAt (s'.hub.place user) user = _
  rw [hd.removed.place, husers]
  rfl

theorem beginClose_of_closing (hc : s.channel? c = some channel) (hcl : channel.isClosing = true) :
    (s.hub.roster.beginClose c).2 = s.hub.roster := by
  rw [Roster.beginClose_snd]
  refine Roster.ext_channels (fun c' => ?_) rfl
  rw [Roster.channel?_modifyChannel]
  split
  next he =>
    rw [he, show s.hub.roster.channel? c = some channel from hc, ← hcl]
    rfl
  next => rfl

/-- A teardown that has begun before does nothing. -/
theorem disconnect_of_closing (hc : s.channel? c = some channel)
    (hcl : channel.isClosing = true) : s.disconnect c = (none, s) := by
  have hfst : (s.hub.roster.beginClose c).1 = !channel.isClosing := Roster.beginClose_fst hc
  simp only [disconnect, hfst, hcl, Bool.not_true, beginClose_of_closing hc hcl]

/-- The teardown of a channel that has not joined only marks the channel. -/
theorem disconnect_of_unjoined (hc : s.channel? c = some channel)
    (hcl : channel.isClosing = false) (hj : channel.isJoined = false) : s.disconnect c =
      (none, { s with hub := { s.hub with roster := (s.hub.roster.beginClose c).2 } }) := by
  have hfst : (s.hub.roster.beginClose c).1 = !channel.isClosing := Roster.beginClose_fst hc
  have hchannel := (channel?_beginClose hc c).trans (if_pos rfl)
  have hmarked : ({ channel with isClosing := true } : Channel).isJoined = false := hj
  simp only [disconnect, hfst, hcl, Bool.not_false, Server.channel?, hchannel, hmarked,
    Bool.false_eq_true, if_false]

/-- Every other teardown dismisses the channel, and tells that its user has left the room. -/
theorem disconnect_of_joined (hs : s.hub.Sound) (hc : s.channel? c = some channel)
    (hcl : channel.isClosing = false) (hj : channel.isJoined = true) :
    ∃ b closed s', s.Dismisses c b channel closed s' ∧ s.disconnect c =
      (if channel.room.isRoom then some ⟨channel.user, channel.room⟩ else none, s') := by
  have hfst : (s.hub.roster.beginClose c).1 = !channel.isClosing := Roster.beginClose_fst hc
  have hchannel := (channel?_beginClose hc c).trans (if_pos rfl)
  have hmarked : ({ channel with isClosing := true } : Channel).isJoined = true := hj
  have hplace : channel.user.bucketIndex s.hub.buckets.length = s.hub.place channel.user := rfl
  obtain ⟨b, closed, h', hb, hremove, hremoved, hsound⟩ := hs.beginClose_remove hc hj
  refine ⟨b, closed, { s with hub := h' }, ⟨hc, hj, hcl, hb, hremoved, hsound, rfl⟩, ?_⟩
  simp only [disconnect, hfst, hcl, Bool.not_false, Server.channel?, hchannel, hmarked, if_true,
    bucketOf]
  rw [hplace, hremove]
  cases hr : channel.room.isRoom <;> simp [Option.filter, hr]

/-! ## Messages -/

/-- Change all mailboxes by a rule. -/
def withMail (s : Server) (f : ChannelRef → Mailbox → Mailbox) : Server :=
  { s with hub := { s.hub with roster := s.hub.roster.mapMail f } }

theorem stamp_snd (s : Server) (now : Nat) (msg : Msg) :
    (s.stamp now msg).2 = { s with generator := (s.stamp now msg).2.generator } := by
  unfold stamp
  split <;> rfl

@[simp] theorem stamp_hub (s : Server) (now : Nat) (msg : Msg) :
    (s.stamp now msg).2.hub = s.hub := by
  rw [stamp_snd]

@[simp] theorem stamp_options (s : Server) (now : Nat) (msg : Msg) :
    (s.stamp now msg).2.options = s.options := by
  rw [stamp_snd]

@[simp] theorem stamp_id (s : Server) (now : Nat) (msg : Msg) :
    (s.stamp now msg).2.id = s.id := by
  rw [stamp_snd]

@[simp] theorem channel?_stamp (s : Server) (now : Nat) (msg : Msg) (c : ChannelRef) :
    (s.stamp now msg).2.channel? c = s.channel? c := by
  rw [channel?, stamp_hub, channel?]

/-- A user who is registered has a channel. -/
theorem exists_channel_of_lookupUser (hs : s.hub.Sound) {user : UserId}
    (hu : s.lookupUser user = some c) :
    ∃ channel, s.channel? c = some channel ∧ channel.user = user :=
  (hs.coherent.registered _ user c hu).2.2

theorem pushUser_of_none {user : UserId} (hu : s.lookupUser user = none) (now : Nat) (msg : Msg) :
    s.pushUser now user msg = (none, s) := by
  simp only [pushUser, hu]

theorem pushUser_eq (hc : s.channel? c = some channel) {user : UserId}
    (hu : s.lookupUser user = some c) (now : Nat) (msg : Msg) :
    s.pushUser now user msg = (some (channel.mailbox.offer (s.stamp now msg).1).1,
      (s.stamp now msg).2.withMail
        (Roster.mailOf c fun m => (m.offer (s.stamp now msg).1).2)) := by
  have hc' : s.hub.roster.channel? c = some channel := hc
  simp only [pushUser, hu, stamp_hub, withMail, Roster.push_fst hc', Roster.push_snd]

theorem drain_eq_takeMail (hc : s.channel? c = some channel) :
    s.hub.roster.drain c = s.hub.roster.takeMail c channel.mailbox.waiting.length := by
  have hc' : s.hub.roster.channel? c = some channel := hc
  simp only [Roster.drain, hc']

theorem takeMail_eq (hc : s.channel? c = some channel) (n : Nat) :
    s.hub.roster.takeMail c n = ((channel.mailbox.take n).1,
      s.hub.roster.mapMail (Roster.mailOf c fun m => (m.take n).2)) := by
  have hc' : s.hub.roster.channel? c = some channel := hc
  rw [← Roster.takeMail_snd]
  simp only [Roster.takeMail, hc']

/-! ## Moves -/

/-- The ways in which a move can go, with its answer and the server it leads to. -/
inductive Outcome (s : Server) : Move → Answer → Server → Prop
  | stray {k : Call} : s.isStray k = true → Outcome s (.call k) .unknownChannel s
  | opened : Outcome s (.call .openChannel) (.opened s.openChannel.1) s.openChannel.2
  | refused {k : Call} {e : RequestError} {calls : List TierCall} : k.entry?.isSome = true →
    Outcome s (.call k) (.joined (.error e) calls) s
  | admitted {k : Call} {c : ChannelRef} {room : RoomId} {user : UserId} {calls : List TierCall}
    {b : Bucket} {channel : Channel} {s' : Server} : k.entry? = some (c, room) →
    s.Admits c user room b channel s' → Outcome s (.call k) (.joined (.ok user) calls) s'
  | leftBefore {tier : BusinessTier} {c : ChannelRef} {channel : Channel} :
    s.channel? c = some channel → channel.isClosing = true →
    Outcome s (.call (.leave tier c)) (.left []) s
  /-- The channel has not joined. -/
  | leftUnjoined {tier : BusinessTier} {c : ChannelRef} {channel : Channel} :
    s.channel? c = some channel → channel.isClosing = false → channel.isJoined = false →
    Outcome s (.call (.leave tier c)) (.left [])
      { s with hub := { s.hub with roster := (s.hub.roster.beginClose c).2 } }
  | left {tier : BusinessTier} {c : ChannelRef} {channel : Channel} {b : Bucket} {closed : Bool}
    {calls : List TierCall} {s' : Server} : s.Dismisses c b channel closed s' →
    Outcome s (.call (.leave tier c)) (.left calls) s'
  /-- The user is not registered. -/
  | missed {now : Nat} {user : UserId} {msg : Msg} : s.lookupUser user = none →
    Outcome s (.call (.pushUser now user msg)) (.pushed none) s
  | offered {now : Nat} {user : UserId} {msg : Msg} {c : ChannelRef} {channel : Channel} :
    s.lookupUser user = some c → s.channel? c = some channel →
    Outcome s (.call (.pushUser now user msg))
      (.pushed (some (channel.mailbox.offer (s.stamp now msg).1).1))
      ((s.stamp now msg).2.withMail (Roster.mailOf c fun m => (m.offer (s.stamp now msg).1).2))
  | queued {k : Call} {now : Nat} {room : RoomId} {msg : Msg} :
    k.roomPush? = some (now, room, msg) → Outcome s (.call k) .done
      { (s.stamp now msg).2 with hub := s.hub.broadcastAll room (s.stamp now msg).1 }
  | taken {k : Call} {c : ChannelRef} {n : Nat} {channel : Channel} :
    k = .take c n ∨ k = .drain c → s.channel? c = some channel →
    Outcome s (.call k) (.taken (channel.mailbox.take n).1)
      (s.withMail (Roster.mailOf c fun m => (m.take n).2))
  | closed {c : ChannelRef} : Outcome s (.call (.closeMailbox c)) .done
      (s.withMail (Roster.mailOf c Mailbox.close))
  | worked {w : WorkerRef} : Outcome s (.work w) .done { s with hub := s.hub.work w }

theorem perform_of_roomPush {k : Call} {now : Nat} {room : RoomId} {msg : Msg}
    (hk : k.roomPush? = some (now, room, msg)) : s.perform k = (.done,
      { (s.stamp now msg).2 with hub := s.hub.broadcastAll room (s.stamp now msg).1 }) := by
  rw [← stamp_hub s now msg]
  cases k <;> cases hk <;> rfl

/-- A push to a room names no channel, so it is never astray. -/
theorem step_of_roomPush {k : Call} {now : Nat} {room : RoomId} {msg : Msg}
    (hk : k.roomPush? = some (now, room, msg)) : s.step (.call k) = (.done,
      { (s.stamp now msg).2 with hub := s.hub.broadcastAll room (s.stamp now msg).1 }) := by
  have hstray : s.isStray k = false := by
    cases k <;> cases hk <;> rfl
  rw [step, hstray, ← perform_of_roomPush hk]
  rfl

theorem exists_channel_of_isStray {k : Call} (hk : s.isStray k = false)
    (hc : k.channel? = some c) : ∃ channel, s.channel? c = some channel := by
  rw [isStray, hc, Option.any_some] at hk
  cases h : s.channel? c with
  | none => simp [h] at hk
  | some channel => exact ⟨channel, rfl⟩

theorem perform_outcome (hs : s.hub.Sound) {k : Call} (hk : s.isStray k = false) :
    s.Outcome (.call k) (s.perform k).1 (s.perform k).2 := by
  cases k with
  | openChannel => exact .opened
  | join tier c token room =>
    obtain ⟨channel, hc⟩ := exists_channel_of_isStray hk rfl
    rcases join_cases hs hc tier token room with ⟨e, calls, he⟩ | ⟨user, b, calls, s', ho, ha⟩
    · rw [perform, he]
      exact .refused rfl
    · rw [perform, ho]
      exact .admitted rfl ha
  | finishJoin c room answer =>
    obtain ⟨channel, hc⟩ := exists_channel_of_isStray hk rfl
    rcases finishJoin_cases hs hc room answer with ⟨e, -, he⟩ | ⟨user, b, s', -, ho, ha⟩
    · rw [perform, he]
      exact .refused rfl
    · rw [perform, ho]
      exact .admitted rfl ha
  | leave tier c =>
    obtain ⟨channel, hc⟩ := exists_channel_of_isStray hk rfl
    rw [perform, leave]
    cases hcl : channel.isClosing with
    | true =>
      rw [disconnect_of_closing hc hcl]
      exact .leftBefore hc hcl
    | false =>
      cases hj : channel.isJoined with
      | false =>
        rw [disconnect_of_unjoined hc hcl hj]
        exact .leftUnjoined hc hcl hj
      | true =>
        obtain ⟨b, closed, s', hd, he⟩ := disconnect_of_joined hs hc hcl hj
        rw [he]
        exact .left hd
  | pushUser now user msg =>
    rw [perform]
    cases hu : s.lookupUser user with
    | none =>
      rw [pushUser_of_none hu]
      exact .missed hu
    | some c =>
      obtain ⟨channel, hc, -⟩ := exists_channel_of_lookupUser hs hu
      rw [pushUser_eq hc hu]
      exact .offered hu hc
  | pushRoom | pushRoomCount | pushRoomInfo =>
    rw [perform_of_roomPush rfl]
    exact .queued rfl
  | take c n =>
    obtain ⟨channel, hc⟩ := exists_channel_of_isStray hk rfl
    rw [perform, takeMail_eq hc]
    exact .taken (.inl rfl) hc
  | drain c =>
    obtain ⟨channel, hc⟩ := exists_channel_of_isStray hk rfl
    rw [perform, drain, drain_eq_takeMail hc, takeMail_eq hc]
    exact .taken (.inr rfl) hc
  | closeMailbox c =>
    rw [perform, closeMailbox, Roster.closeMailbox_eq]
    exact .closed

theorem step_outcome (hs : s.hub.Sound) (m : Move) : s.Outcome m (s.step m).1 (s.step m).2 := by
  cases m with
  | call k =>
    rw [step]
    cases hk : s.isStray k with
    | true => exact .stray hk
    | false => exact perform_outcome hs hk
  | work w => exact .worked

/-! ## Every reachable state -/

namespace Outcome

variable {m : Move} {a : Answer}

theorem sound (ho : s.Outcome m a s') (hs : s.hub.Sound) : s'.hub.Sound := by
  cases ho with
  | stray | refused | leftBefore | missed => exact hs
  | opened => exact hs.addChannel _ _
  | admitted _ ha =>
    exact hs.joined ha.joined ha.bucket ha.channel? ha.fresh ha.isOpen ha.assigned rfl
  | leftUnjoined hc _ hj => exact hs.beginClose_unjoined hc hj
  | left hd => exact hd.sound
  | offered =>
    rw [withMail, stamp_hub]
    exact hs.mapMail _
  | queued => exact hs.broadcastAll _ _
  | taken | closed => exact hs.mapMail _
  | worked => exact hs.work _

theorem settings (ho : s.Outcome m a s') : s'.id = s.id ∧ s'.options = s.options := by
  cases ho with
  | stray | refused | leftBefore | missed | opened | leftUnjoined | taken | closed | worked =>
    exact ⟨rfl, rfl⟩
  | admitted _ ha =>
    rw [ha.rest]
    exact ⟨rfl, rfl⟩
  | left hd =>
    rw [hd.rest]
    exact ⟨rfl, rfl⟩
  | offered | queued => exact ⟨stamp_id .., stamp_options ..⟩

/-- Only pushes to rooms and workers change queues. -/
theorem sameQueues (ho : s.Outcome m a s') (hm : ∀ w, m ≠ .work w)
    (hk : ∀ k, m = .call k → k.roomPush? = none) : s.hub.SameQueues s'.hub := by
  have hrefl : ∀ roster, s.hub.SameQueues { s.hub with roster } := fun _ => ⟨rfl, fun _ => rfl⟩
  cases ho with
  | stray | refused | leftBefore | missed => exact hrefl _
  | opened => exact hrefl _
  | admitted _ ha => exact ha.joined.sameQueues ha.bucket
  | leftUnjoined => exact hrefl _
  | left hd =>
    obtain ⟨hawake, hbuckets⟩ := hd.removed.sameQueues hd.bucket
    exact ⟨hawake, hbuckets⟩
  | offered =>
    rw [withMail, stamp_hub]
    exact hrefl _
  | queued hp => simp [hk _ rfl] at hp
  | taken | closed => exact hrefl _
  | worked => exact absurd rfl (hm _)

end Outcome

/-- A call that is no push to a room leaves all queues as they are. -/
theorem sameQueues_call (hs : s.hub.Sound) {k : Call} (hk : k.roomPush? = none) :
    s.hub.SameQueues (s.step (.call k)).2.hub := by
  refine (step_outcome hs (.call k)).sameQueues ?_ ?_
  · intro w he
    cases he
  · intro k' he
    cases he
    exact hk

theorem staffed_step (hs : s.hub.Sound) (hst : s.hub.Staffed) (m : Move) :
    (s.step m).2.hub.Staffed := by
  cases m with
  | work w => exact hst.work w
  | call k =>
    cases hp : k.roomPush? with
    | none => exact (sameQueues_call hs hp).staffed hst
    | some p =>
      obtain ⟨now, room, msg⟩ := p
      rw [step_of_roomPush hp]
      exact hst.broadcastAll _ _

/-- Every hub that a server is left with is sound. -/
theorem sound_after (hs : s.hub.Sound) (ms : List Move) : (s.after ms).hub.Sound := by
  induction ms generalizing s with
  | nil => exact hs
  | cons m ms ih => exact ih ((step_outcome hs m).sound hs)

/-- The identifier and the options of a server are never changed. -/
theorem settings_after (hs : s.hub.Sound) (ms : List Move) :
    (s.after ms).id = s.id ∧ (s.after ms).options = s.options := by
  induction ms generalizing s with
  | nil => exact ⟨rfl, rfl⟩
  | cons m ms ih =>
    have ho := step_outcome hs m
    obtain ⟨hid, hoptions⟩ := ih (ho.sound hs)
    exact ⟨hid.trans ho.settings.1, hoptions.trans ho.settings.2⟩

/-- In every hub that a server is left with, awake are exactly the workers that have jobs. -/
theorem staffed_after (hs : s.hub.Sound) (hst : s.hub.Staffed) (ms : List Move) :
    (s.after ms).hub.Staffed := by
  induction ms generalizing s with
  | nil => exact hst
  | cons m ms ih => exact ih ((step_outcome hs m).sound hs) (staffed_step hs hst m)

/-- A round of the workers is a run: it consists of single steps of work. -/
theorem runWorkers_eq_after (hst : s.hub.Staffed) :
    s.runWorkers = s.after (s.hub.turns.map .work) := by
  have hfold : ∀ (ws : List WorkerRef) (s : Server),
      s.after (ws.map .work) = { s with hub := ws.foldl Hub.work s.hub } := by
    intro ws
    induction ws with
    | nil =>
      intro s
      rfl
    | cons w ws ih =>
      intro s
      exact ih { s with hub := s.hub.work w }
  rw [runWorkers, hst.run_eq_foldl_work, hfold]

end ChatRelay.Server
