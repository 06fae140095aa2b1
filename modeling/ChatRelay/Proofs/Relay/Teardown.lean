import ChatRelay.Proofs.Relay.Consistency
import ChatRelay.Proofs.Relay.Provenance
import ChatRelay.Tier.Rehearsal

/-!
# Teardown is final

A channel whose teardown has begun carries a mark that no move takes away. As long as the hub is
sound, a marked channel is in no user index and in no room, so no push and no job finds it; and a
bucket takes no marked channel in. The answer to a join request may therefore arrive before the
teardown, after it or never: what the teardown has undone stays undone.
-/

namespace ChatRelay

/-- How a bucket refuses a channel whose teardown has begun. -/
def Channel.refusal (channel : Channel) : BucketError :=
  if channel.isJoined then .alreadyJoined channel.connId else .closing channel.connId

namespace Server

variable {s s' s₀ : Server} {m : Move} {a : Answer} {c : ChannelRef} {channel : Channel}

/-- What the business tier answers to a join, if it is asked. -/
def tierAnswer? (s : Server) : Call → Option (Except TierError UserId)
  | .join tier _ token room => (s.joinRequest token room).toOption.map tier.connect
  | .finishJoin _ _ answer => some answer
  | _ => none

/-- No user index and no room names the channel, and the channel names no room. -/
structure Forgotten (s : Server) (c : ChannelRef) : Prop where
  users : ∀ i user, s.hub.userAt i user ≠ some c
  rooms : ∀ r room, s.hub.roster.room? r = some room → c ∉ room.members
  unlinked : s.hub.roster.linkedRoom? c = none

/-! ## While a channel is marked -/

theorem link_eq_none_of_closing (hs : s.hub.Sound) (hc : s.channel? c = some channel)
    (hcl : channel.isClosing = true) : channel.link = none := by
  have hiff := (hs.settled c).link_iff channel hc
  rw [← Option.not_isSome_iff_eq_none, hiff]
  rintro ⟨-, hopen, -⟩
  rw [hcl] at hopen
  cases hopen

theorem forgotten_of_closing (hs : s.hub.Sound) (hc : s.channel? c = some channel)
    (hcl : channel.isClosing = true) : s.Forgotten c := by
  obtain ⟨hunlinked, hrooms⟩ := unseated hs hc (link_eq_none_of_closing hs hc hcl)
  exact ⟨(hs.settled c).unregistered channel hc hcl, hrooms, hunlinked⟩

/-- A marked channel is none that is not marked. -/
theorem ne_of_closing {c' : ChannelRef} {channel' : Channel} (hc : s.channel? c = some channel)
    (hcl : channel.isClosing = true) (hc' : s.channel? c' = some channel')
    (hopen : channel'.isClosing = false) : c ≠ c' := by
  rintro rfl
  rw [hc] at hc'
  obtain rfl := Option.some.inj hc'
  rw [hcl] at hopen
  cases hopen

/-- A marked channel is offered nothing. -/
theorem lookupUser_ne_of_closing (hs : s.hub.Sound) (hc : s.channel? c = some channel)
    (hcl : channel.isClosing = true) (user : UserId) : s.lookupUser user ≠ some c :=
  (hs.settled c).unregistered channel hc hcl _ user

theorem notMem_membersOf_of_closing (hs : s.hub.Sound) (hc : s.channel? c = some channel)
    (hcl : channel.isClosing = true) (i : Nat) (room : RoomId) : c ∉ s.hub.membersOf i room := by
  intro hm
  obtain ⟨-, channel', hc', -, hopen, -⟩ := hs.mem_membersOf.mp hm
  exact ne_of_closing hc hcl hc' hopen rfl

/-- Whatever the business tier answers, a marked channel does not join. If the answer names a user,
it is the bucket that refuses. -/
theorem finishJoin_of_closing (hs : s.hub.Sound) (hc : s.channel? c = some channel)
    (hcl : channel.isClosing = true) (room : RoomId) (answer : Except TierError UserId) :
    ∃ e, s.finishJoin c room answer = .error e ∧ ∀ user, answer = .ok user →
      user.isUnassigned = false → e = .bucket channel.refusal := by
  rcases finishJoin_cases hs hc room answer with ⟨e, hv, he⟩ | ⟨user, b, s', -, -, ha⟩
  · refine ⟨e, he, ?_⟩
    rintro user rfl hu
    cases hj : channel.isJoined with
    | true => simpa [verdict, Channel.refusal, hu, hj, eq_comm] using hv
    | false => simpa [verdict, Channel.refusal, hu, hj, hcl, eq_comm] using hv
  · exact absurd rfl (ne_of_closing hc hcl ha.channel? ha.isOpen)

/-- Every join of a marked channel fails and changes nothing, whether the business tier has been
asked before or is asked now. -/
theorem join_of_closing (hs : s.hub.Sound) (hc : s.channel? c = some channel)
    (hcl : channel.isClosing = true) {k : Call} {room : RoomId} (hk : k.entry? = some (c, room)) :
    ∃ e calls, s.step (.call k) = (.joined (.error e) calls, s) ∧
      ∀ user, s.tierAnswer? k = some (.ok user) → user.isUnassigned = false →
        e = .bucket channel.refusal := by
  have hstray : s.isStray k = false := by
    cases k <;> cases hk <;> simp [isStray, Call.channel?, hc]
  rw [step, hstray]
  cases k <;> cases hk
  case join tier token =>
    cases hr : s.joinRequest token room with
    | error e =>
      refine ⟨e, [], ?_, ?_⟩
      · simp only [perform, join, hr, Bool.false_eq_true, if_false]
      · simp [tierAnswer?, hr, Except.toOption]
    | ok request =>
      obtain ⟨e, he, hbucket⟩ := finishJoin_of_closing hs hc hcl room (tier.connect request)
      refine ⟨e, [called (.connect request) (tier.connect request)], ?_, ?_⟩
      · simp only [perform, join, hr, he, Bool.false_eq_true, if_false]
      · intro user hanswer
        simp only [tierAnswer?, hr, Except.toOption, Option.map_some, Option.some.injEq] at hanswer
        exact hbucket user hanswer
  case finishJoin answer =>
    obtain ⟨e, he, hbucket⟩ := finishJoin_of_closing hs hc hcl room answer
    refine ⟨e, [], ?_, ?_⟩
    · simp only [perform, he, Bool.false_eq_true, if_false]
    · intro user hanswer
      exact hbucket user (Option.some.inj hanswer)

/-! ## The mark stays -/

/-- A channel is as it was but for messages that its writer has taken out of its mailbox. -/
def Remains (s : Server) (c : ChannelRef) (channel : Channel) : Prop :=
  ∃ mailbox, s.channel? c = some { channel with mailbox } ∧
    mailbox.waiting <:+ channel.mailbox.waiting

theorem remains_of_eq (hc : s'.channel? c = some channel) : s'.Remains c channel :=
  ⟨channel.mailbox, hc, List.suffix_refl _⟩

theorem remains_withMail {f : ChannelRef → Mailbox → Mailbox} (hc : s.channel? c = some channel)
    (hf : (f c channel.mailbox).waiting <:+ channel.mailbox.waiting) :
    (s.withMail f).Remains c channel := by
  refine ⟨f c channel.mailbox, ?_, hf⟩
  have hmail : (s.withMail f).channel? c =
      (s.channel? c).map fun ch => { ch with mailbox := f c ch.mailbox } :=
    Roster.channel?_mapMail ..
  rw [hmail, hc]
  rfl

/-- No move changes a marked channel, except that its writer takes messages out. -/
theorem Outcome.remains (hs : s.hub.Sound) (ho : s.Outcome m a s')
    (hc : s.channel? c = some channel) (hcl : channel.isClosing = true) : s'.Remains c channel := by
  cases ho with
  | stray | refused | leftBefore | missed => exact remains_of_eq hc
  | opened =>
    have hne : c ≠ s.openChannel.1 := by
      rintro rfl
      rw [channel?_openChannel_fst] at hc
      cases hc
    apply remains_of_eq
    rw [channel?_openChannel, if_neg hne, hc]
  | admitted _ ha =>
    obtain ⟨link, hchannels⟩ := ha.channels hs
    apply remains_of_eq
    rw [hchannels, if_neg (ne_of_closing hc hcl ha.channel? ha.isOpen), hc]
  | leftUnjoined hc' hopen =>
    have hne := ne_of_closing hc hcl hc' hopen
    exact remains_of_eq ((channel?_beginClose hc' c).trans ((if_neg hne).trans hc))
  | left hd =>
    apply remains_of_eq
    rw [hd.channels, if_neg (ne_of_closing hc hcl hd.channel? hd.isOpen), hc]
  | @offered now user msg c' channel' hu =>
    have hne : c ≠ c' := by
      rintro rfl
      exact lookupUser_ne_of_closing hs hc hcl user hu
    apply remains_withMail
    · rw [channel?_stamp, hc]
    · unfold Roster.mailOf
      split
      next he => exact absurd he hne
      next => exact List.suffix_refl _
  | queued =>
    apply remains_of_eq
    show (s.hub.broadcastAll _ _).roster.channel? c = some channel
    rw [Hub.broadcastAll_roster]
    exact hc
  | taken =>
    apply remains_withMail hc
    unfold Roster.mailOf
    split
    next => exact List.drop_suffix ..
    next => exact List.suffix_refl _
  | closed =>
    apply remains_withMail hc
    unfold Roster.mailOf
    split
    next => exact List.nil_suffix
    next => exact List.suffix_refl _
  | @worked w =>
    apply remains_of_eq
    cases hq : s.hub.queue w with
    | nil =>
      rw [Hub.work_of_nil hq]
      exact hc
    | cons job rest =>
      have hperforms := (performs_work hs hq).channels c
      rw [hperforms, hc, Option.map_some, if_neg (notMem_membersOf_of_closing hs hc hcl _ _)]

/-- No run changes a marked channel, except that its writer takes messages out. -/
theorem remains_after (hs : s.hub.Sound) (hc : s.channel? c = some channel)
    (hcl : channel.isClosing = true) (ms : List Move) : (s.after ms).Remains c channel := by
  induction ms generalizing s channel with
  | nil => exact remains_of_eq hc
  | cons m ms ih =>
    obtain ⟨mailbox, hc', hsuffix⟩ := (step_outcome hs m).remains hs hc hcl
    obtain ⟨mailbox', hc'', hsuffix'⟩ := ih ((step_outcome hs m).sound hs) hc' hcl
    exact ⟨mailbox', hc'', hsuffix'.trans hsuffix⟩

theorem step_leave (hc : s.channel? c = some channel) (tier : BusinessTier) :
    s.step (.call (.leave tier c)) = (.left (s.leave tier c).1, (s.disconnect c).2) := by
  have hstray : s.isStray (.leave tier c) = false := by
    simp [isStray, Call.channel?, hc]
  rw [step, hstray]
  rfl

/-- A teardown marks its channel, and takes it out of its room. -/
theorem channel?_leave (hs : s.hub.Sound) (hc : s.channel? c = some channel)
    (tier : BusinessTier) : (s.step (.call (.leave tier c))).2.channel? c =
      some { channel with isClosing := true, link := none } := by
  rw [step_leave hc]
  cases hcl : channel.isClosing with
  | true =>
    have hlink := link_eq_none_of_closing hs hc hcl
    rw [disconnect_of_closing hc hcl, hc, ← hcl, ← hlink]
  | false =>
    cases hj : channel.isJoined with
    | false =>
      have hlink := hs.coherent.link_eq_none hc hj
      rw [disconnect_of_unjoined hc hcl hj, ← hlink]
      exact (channel?_beginClose hc c).trans (if_pos rfl)
    | true =>
      obtain ⟨b, closed, s', hd, he⟩ := disconnect_of_joined hs hc hcl hj
      rw [he]
      exact (hd.channels c).trans (if_pos rfl)

/-! ## Later offers -/

/-- An offer to a channel is made before the channel is marked. -/
theorem move_le_of_closing (hs : s₀.hub.Sound) (hst : s₀.hub.Staffed)
    (hempty : ∀ w, s₀.hub.queue w = []) {ms : List Move} {n : Nat}
    (hmarked : ∀ k, n < k → ∃ channel, (s₀.after (ms.take k)).channel? c = some channel ∧
      channel.isClosing = true) {x : Offer} (hx : x ∈ s₀.journal ms) (hxc : x.channel = c) :
    x.move ≤ n := by
  by_contra hlt
  rw [Nat.not_le] at hlt
  obtain ⟨channel, hc, hcl⟩ := hmarked x.move hlt
  have hsound := sound_after hs (ms.take x.move)
  cases (mem_journal_iff hs hst hempty ms x).mp hx with
  | push _ hu =>
    subst hxc
    exact lookupUser_ne_of_closing hsound hc hcl _ hu
  | job _ _ _ hm =>
    subst hxc
    exact notMem_membersOf_of_closing hsound hc hcl _ _ hm

/-- Once the teardown of a channel is through, in this state and whatever follows: no index and no
room names the channel, and it stays as it is but for the messages that its writer takes out. Every
join of it fails and changes nothing, whenever it was asked for, and if it gets as far as the bucket
it is refused there. No push and no job offers the channel anything. -/
theorem teardown_final (id : String) (options : ConnectionOptions) (config : BucketConfig)
    (generator : SequenceId.Generator) (before later : List Move) (tier : BusinessTier)
    (c : ChannelRef) (channel : Channel)
    (hc : ((new id options config generator).after before).channel? c = some channel) :
    let s₀ := new id options config generator
    let run := before ++ .call (.leave tier c) :: later
    let s := s₀.after run
    s.Forgotten c ∧ s.Remains c { channel with isClosing := true, link := none } ∧
    (∀ k room, k.entry? = some (c, room) →
      ∃ e calls, s.step (.call k) = (.joined (.error e) calls, s) ∧
        ∀ user, s.tierAnswer? k = some (.ok user) → user.isUnassigned = false →
          e = .bucket channel.refusal) ∧
    ∀ x ∈ s₀.journal run, x.channel = c → x.move ≤ before.length := by
  intro s₀ run s
  have hs₀ : s₀.hub.Sound := Hub.sound_new config
  have hmarked : ∀ later, (s₀.after (before ++ .call (.leave tier c) :: later)).Remains c
      { channel with isClosing := true, link := none } := by
    intro later
    have hbefore := sound_after hs₀ before
    have hleft := channel?_leave hbefore hc tier
    have hsound := (step_outcome hbefore (.call (.leave tier c))).sound hbefore
    rw [after_append]
    exact remains_after hsound hleft rfl later
  obtain ⟨mailbox, hremains, -⟩ := hmarked later
  have hs : s.hub.Sound := sound_after hs₀ run
  refine ⟨forgotten_of_closing hs hremains rfl, hmarked later, ?_, ?_⟩
  · intro k room hk
    exact join_of_closing hs hremains rfl hk
  · intro x hx hxc
    refine move_le_of_closing hs₀ (Hub.staffed_new config) (Hub.queue_new config) ?_ hx hxc
    intro k hk
    obtain ⟨mailbox', hremains', -⟩ := hmarked (later.take (k - before.length - 1))
    have htake : run.take k = before ++ .call (.leave tier c) ::
        later.take (k - before.length - 1) := by
      rw [List.take_append, List.take_of_length_le (by omega), List.take_cons (by omega)]
    rw [htake]
    exact ⟨_, hremains', rfl⟩

/-- The answer to a join comes after the teardown of its channel, and after the user has come back
over another channel. -/
theorem teardown_final_late_answer :
    let s₀ := new "relay" .standard ⟨1, 16, 16, 1, 1⟩ ⟨0, by decide, 0, 0⟩
    let before : List Move := [.call .openChannel, .call .openChannel,
      .call (.finishJoin ⟨1⟩ ⟨7⟩ (.ok ⟨5⟩))]
    let late : Call := .finishJoin ⟨0⟩ ⟨7⟩ (.ok ⟨5⟩)
    let later : List Move := [.call late, .call (.pushRoom 1 ⟨7⟩ ⟨1, .roomSend, ⟨0⟩, "hello"⟩),
      .work ⟨0, 0⟩]
    let run := before ++ .call (.leave (.rehearsal none) ⟨0⟩) :: later
    let s := s₀.after run
    (s₀.after before).channel? ⟨0⟩ = some (.new 1 512) ∧ s.Forgotten ⟨0⟩ ∧
      s.Remains ⟨0⟩ { Channel.new 1 512 with isClosing := true } ∧
      (∃ calls, s.step (.call late) = (.joined (.error (.bucket (.closing 1))) calls, s)) ∧
      ∀ x ∈ s₀.journal run, x.channel = ⟨0⟩ → x.move ≤ 3 := by
  intro s₀ before late later run s
  have hc : (s₀.after before).channel? ⟨0⟩ = some (.new 1 512) := by decide +kernel
  obtain ⟨hforgotten, hremains, hjoins, hoffers⟩ :=
    teardown_final "relay" .standard ⟨1, 16, 16, 1, 1⟩ ⟨0, by decide, 0, 0⟩ before later
      (.rehearsal none) ⟨0⟩ (.new 1 512) hc
  obtain ⟨e, calls, hstep, hbucket⟩ := hjoins late ⟨7⟩ rfl
  have he : e = .bucket (.closing 1) := hbucket ⟨5⟩ rfl rfl
  subst he
  exact ⟨hc, hforgotten, hremains, ⟨calls, hstep⟩, hoffers⟩

end Server

end ChatRelay
