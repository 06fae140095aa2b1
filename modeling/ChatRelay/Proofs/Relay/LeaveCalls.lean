import ChatRelay.Proofs.Relay.Teardown
import ChatRelay.Tier.Rehearsal

/-!
# Leave calls

The business tier is told that a user has left a room once for every session, not once for every
user: a user who comes back over a second channel before the first one is torn down has two sessions
in the room, and the first teardown is reported while the second channel is still a member. Who is
still there when a leave call is made is told by the joins and teardowns so far.
-/

namespace ChatRelay

/-- The request of a leave call. -/
def TierCall.leave? (call : TierCall) : Option DisconnectRequest :=
  match call.request with
  | .disconnect request => some request
  | .connect _ | .sendRoom _ => none

/-- The calls that are made before a move is answered. -/
def Answer.calls : Answer → List TierCall
  | joined _ calls | left calls => calls
  | opened _ | pushed _ | taken _ | done | unknownChannel => []

/-- The leave calls among them. -/
def Answer.leaveCalls (a : Answer) : List DisconnectRequest :=
  a.calls.filterMap TierCall.leave?

@[simp] theorem TierCall.leave?_called_connect {α : Type} (request : ConnectRequest)
    (answer : Except TierError α) : (Server.called (.connect request) answer).leave? = none := by
  cases answer <;> rfl

@[simp] theorem TierCall.leave?_called_disconnect {α : Type} (request : DisconnectRequest)
    (answer : Except TierError α) :
    (Server.called (.disconnect request) answer).leave? = some request := by
  cases answer <;> rfl

namespace Server

variable {s : Server} {m : Move} {c : ChannelRef} {user : UserId} {room : RoomId}
  {r : DisconnectRequest}

/-- The channel has joined as the user, its teardown has not begun, and a bucket lists it in the
room. -/
def Attends (s : Server) (c : ChannelRef) (user : UserId) (room : RoomId) : Prop :=
  (∃ channel, s.channel? c = some channel ∧ channel.user = user ∧ channel.isJoined = true ∧
    channel.isClosing = false) ∧ ∃ i, c ∈ s.hub.membersOf i room

/-- The members of a room are the channels that have joined it. -/
theorem attends_iff (hs : s.hub.Sound) :
    s.Attends c user room ↔ room.isRoom = true ∧ s.Carries ⟨c, user, room⟩ := by
  constructor
  · rintro ⟨⟨channel, hc, hu, -, -⟩, i, hm⟩
    obtain ⟨hroom, channel', hc', hj, hopen, hr, -⟩ := hs.mem_membersOf.mp hm
    obtain rfl : channel = channel' := Option.some.inj (hc.symm.trans hc')
    exact ⟨hroom, channel, hc, hu, hr, hj, hopen⟩
  · rintro ⟨hroom, channel, hc, hu, hr, hj, hopen⟩
    refine ⟨⟨channel, hc, hu, hj, hopen⟩, s.hub.place channel.user, ?_⟩
    exact hs.mem_membersOf.mpr ⟨hroom, channel, hc, hj, hopen, hr, rfl⟩

/-! ## One move -/

theorem leaveCalls_perform_leave (tier : BusinessTier) (c : ChannelRef) :
    (s.perform (.leave tier c)).1.leaveCalls = (s.disconnect c).1.toList := by
  rw [perform, leave, Answer.leaveCalls, Answer.calls]
  cases (s.disconnect c).1 <;> simp

/-- Joins ask who joins; only a teardown tells who has left. -/
theorem mem_leaveCalls_perform {k : Call} : r ∈ (s.perform k).1.leaveCalls ↔
    ∃ tier c, k = .leave tier c ∧ (s.disconnect c).1 = some r := by
  cases k with
  | leave tier c =>
    rw [leaveCalls_perform_leave, Option.mem_toList]
    constructor
    · intro hr
      exact ⟨tier, c, rfl, hr⟩
    · rintro ⟨_, _, ⟨⟩, hr⟩
      exact hr
  | join tier c token room =>
    rw [perform, join]
    cases s.joinRequest token room with
    | error e => simp [Answer.leaveCalls, Answer.calls]
    | ok request =>
      dsimp only
      cases s.finishJoin c room (tier.connect request) <;>
        simp [Answer.leaveCalls, Answer.calls]
  | finishJoin c room answer =>
    rw [perform]
    cases s.finishJoin c room answer <;> simp [Answer.leaveCalls, Answer.calls]
  | openChannel | pushUser | pushRoom | pushRoomCount | pushRoomInfo | take | drain
  | closeMailbox => simp [perform, Answer.leaveCalls, Answer.calls]

/-- A teardown tells that the user of an open session has left its room, if there is one. -/
theorem disconnect_eq_some_iff (hs : s.hub.Sound) {channel : Channel}
    (hc : s.channel? c = some channel) : (s.disconnect c).1 = some r ↔
      r.room.isRoom = true ∧ s.Carries ⟨c, r.user, r.room⟩ := by
  have hcarries : s.Carries ⟨c, r.user, r.room⟩ ↔ channel.user = r.user ∧ channel.room = r.room ∧
      channel.isJoined = true ∧ channel.isClosing = false := by
    simp only [Carries, hc, Option.some.injEq, exists_eq_left']
  obtain ⟨user, room⟩ := r
  rw [hcarries]
  cases hcl : channel.isClosing with
  | true => simp [disconnect_of_closing hc hcl]
  | false =>
    cases hj : channel.isJoined with
    | false => simp [disconnect_of_unjoined hc hcl hj]
    | true =>
      obtain ⟨b, closed, s', -, he⟩ := disconnect_of_joined hs hc hcl hj
      rw [he]
      cases hr : channel.room.isRoom with
      | true =>
        constructor
        · rintro ⟨⟩
          exact ⟨hr, rfl, rfl, rfl, rfl⟩
        · rintro ⟨-, rfl, rfl, -⟩
          rfl
      | false =>
        constructor
        · rintro ⟨⟩
        · rintro ⟨hroom, -, rfl, -⟩
          rw [hr] at hroom
          cases hroom

/-- Leave calls are made by teardowns of open sessions, and by nothing else. -/
theorem mem_leaveCalls_step (hs : s.hub.Sound) : r ∈ (s.step m).1.leaveCalls ↔
    ∃ tier c, m = .call (.leave tier c) ∧ r.room.isRoom = true ∧
      s.Carries ⟨c, r.user, r.room⟩ := by
  cases m with
  | work w => simp [step, Answer.leaveCalls, Answer.calls]
  | call k =>
    rw [step]
    cases hk : s.isStray k with
    | true =>
      constructor
      · exact fun hr => absurd hr List.not_mem_nil
      · rintro ⟨tier, c, ⟨⟩, -, channel, hc, -⟩
        simp [isStray, Call.channel?, hc] at hk
    | false =>
      show r ∈ (s.perform k).1.leaveCalls ↔ _
      rw [mem_leaveCalls_perform]
      constructor
      · rintro ⟨tier, c, rfl, hr⟩
        obtain ⟨channel, hc⟩ := exists_channel_of_isStray hk rfl
        exact ⟨tier, c, rfl, (disconnect_eq_some_iff hs hc).mp hr⟩
      · rintro ⟨tier, c, ⟨⟩, hr⟩
        obtain ⟨channel, hc, -⟩ := hr.2
        exact ⟨tier, c, rfl, (disconnect_eq_some_iff hs hc).mpr hr⟩

/-! ## Who is still there -/

/-- A teardown ends the session of its channel. -/
theorem sessions_leave {channel : Channel} {run : List Move} {tier : BusinessTier}
    (hc : (s.after run).channel? c = some channel) :
    sessions (s.history (run ++ [.call (.leave tier c)])) =
      (sessions (s.history run)).filter fun x => x.channel ≠ c := by
  rw [history_concat, step_leave hc, sessions, List.foldl_append]
  apply List.filter_congr
  intro x _
  simp [Call.channel?, eq_comm]

/-- When a leave call is made, it is for an open session that ends with it: its channel is in no
room any more. The channels of the user that are still in the room are those of the other sessions
that the user has in it. -/
theorem leave_call_spec (id : String) (options : ConnectionOptions) (config : BucketConfig)
    (generator : SequenceId.Generator) (run : List Move) (m : Move) (r : DisconnectRequest)
    (hr : r ∈ (((new id options config generator).after run).step m).1.leaveCalls) :
    let s₀ := new id options config generator
    let live := sessions (s₀.history run)
    let s := s₀.after (run ++ [m])
    ∃ tier c, m = .call (.leave tier c) ∧ ⟨c, r.user, r.room⟩ ∈ live ∧
      (∀ ref room, s.hub.roster.room? ref = some room → c ∉ room.members) ∧
      ∀ c', s.Attends c' r.user r.room ↔ c' ≠ c ∧ ⟨c', r.user, r.room⟩ ∈ live := by
  intro s₀ live s
  have hsound : ∀ ms, (s₀.after ms).hub.Sound := sound_after (Hub.sound_new config)
  obtain ⟨tier, c, rfl, hroom, hcarries⟩ := (mem_leaveCalls_step (hsound run)).mp hr
  have hlive : ⟨c, r.user, r.room⟩ ∈ live := (mem_sessions_iff ..).mpr hcarries
  obtain ⟨channel, hc, -⟩ := hcarries
  have hforgotten : s.Forgotten c := by
    have hleft := channel?_leave (hsound run) hc tier
    rw [← after_concat] at hleft
    exact forgotten_of_closing (hsound _) hleft rfl
  refine ⟨tier, c, rfl, hlive, hforgotten.rooms, fun c' => ?_⟩
  rw [attends_iff (hsound _), and_iff_right hroom, ← mem_sessions_iff, sessions_leave hc,
    List.mem_filter, decide_eq_true_iff, and_comm]

/-- A user joins two rooms over three channels. When the first one goes, one is left in its room. -/
theorem leave_call_spec_rejoined :
    let s₀ := new "relay" .standard ⟨1, 16, 16, 1, 1⟩ ⟨0, by decide, 0, 0⟩
    let run : List Move := [.call .openChannel, .call .openChannel, .call .openChannel,
      .call (.finishJoin ⟨0⟩ ⟨7⟩ (.ok ⟨5⟩)), .call (.finishJoin ⟨1⟩ ⟨7⟩ (.ok ⟨5⟩)),
      .call (.finishJoin ⟨2⟩ ⟨8⟩ (.ok ⟨5⟩))]
    let m : Move := .call (.leave (.rehearsal none) ⟨0⟩)
    ⟨⟨5⟩, ⟨7⟩⟩ ∈ ((s₀.after run).step m).1.leaveCalls ∧
      ∀ c', (s₀.after (run ++ [m])).Attends c' ⟨5⟩ ⟨7⟩ ↔ c' = ⟨1⟩ := by
  intro s₀ run m
  have hr : ⟨⟨5⟩, ⟨7⟩⟩ ∈ ((s₀.after run).step m).1.leaveCalls := by decide +kernel
  have hlive : sessions (s₀.history run) =
      [⟨⟨0⟩, ⟨5⟩, ⟨7⟩⟩, ⟨⟨1⟩, ⟨5⟩, ⟨7⟩⟩, ⟨⟨2⟩, ⟨5⟩, ⟨8⟩⟩] := by decide +kernel
  obtain ⟨tier, c, ⟨⟩, -, -, hattends⟩ :=
    leave_call_spec "relay" .standard ⟨1, 16, 16, 1, 1⟩ ⟨0, by decide, 0, 0⟩ run
      (.call (.leave (.rehearsal none) ⟨0⟩)) _ hr
  refine ⟨hr, fun c' => (hattends c').trans ?_⟩
  rw [hlive]
  constructor
  · rintro ⟨hne, hmem⟩
    simpa [hne] using hmem
  · rintro rfl
    decide

/-- A user comes back over a second channel before the first one is torn down. The first teardown
tells that the user has left the room, and the second channel is still a member. -/
theorem leave_call_while_attending :
    let s₀ := new "relay" .standard ⟨1, 16, 16, 1, 1⟩ ⟨0, by decide, 0, 0⟩
    let s := s₀.after [.call .openChannel, .call .openChannel,
      .call (.join (.rehearsal none) ⟨0⟩ "token-5" ⟨7⟩),
      .call (.join (.rehearsal none) ⟨1⟩ "token-5" ⟨7⟩)]
    let m : Move := .call (.leave (.rehearsal none) ⟨0⟩)
    ⟨⟨5⟩, ⟨7⟩⟩ ∈ (s.step m).1.leaveCalls ∧ (s.step m).2.Attends ⟨1⟩ ⟨5⟩ ⟨7⟩ := by
  intro s₀ s m
  have hcall : ⟨⟨5⟩, ⟨7⟩⟩ ∈ (s.step m).1.leaveCalls := by decide +kernel
  have hc : (s.step m).2.channel? ⟨1⟩ =
      some ⟨2, ⟨5⟩, ⟨7⟩, .new 512, some ⟨⟨0⟩, 1⟩, false⟩ := by decide +kernel
  have hmember : ⟨1⟩ ∈ (s.step m).2.hub.membersOf 0 ⟨7⟩ := by decide +kernel
  exact ⟨hcall, ⟨_, hc, rfl, rfl, rfl⟩, 0, hmember⟩

end Server

end ChatRelay
