import ChatRelay.Proofs.Message.WrittenJoin
import ChatRelay.Proofs.Relay.LeaveLog
import ChatRelay.Proofs.Transport.RawProtocol
import ChatRelay.Transport.WebSocket

/-!
# Joining over a WebSocket connection

The first message of a WebSocket connection either joins (`JoinAccepted`) or ends the connection for
one of five reasons (`JoinRefused`), and there is no third way (`refused_or_accepted`). The business
tier is asked once if the message names a token, and not otherwise; what the bucket says comes last.

On the server an open connection is a seat (`Server.Seats`): empty before the join, taken by a user
in a room afterwards. Moves that concern other connections leave the seat as it is, a join takes it,
and the teardown reports who had it, if that was in a room.
-/

namespace ChatRelay

open Transport

theorem UserId.isUnassigned_iff {user : UserId} : user.isUnassigned = true ↔ user.value = 0 :=
  beq_iff_eq

namespace Transport

/-! ## What a first message leads to -/

/-- What the business tier is asked by a first message of this content, if it is asked. -/
def requestOf? (serverId : String) (content : Frame.Bytes) : Option ConnectRequest :=
  match WrittenJoin.wire.decode content with
  | .error _ => none
  | .ok w => if w.authToken = "" then none else some ⟨w.authToken, w.room?.getD .none, serverId⟩

/-- The call that asks it. -/
def connectCalls (serverId : String) (tier : BusinessTier) (content : Frame.Bytes) :
    List TierCall :=
  (requestOf? serverId content).toList.map fun request =>
    Server.called (.connect request) (tier.connect request)

/-- The user who joins, with the room, if the bucket does not refuse. -/
def sessionOf? (serverId : String) (tier : BusinessTier) (content : Frame.Bytes) :
    Option DisconnectRequest :=
  (requestOf? serverId content).bind fun request =>
    match tier.connect request with
    | .error _ => none
    | .ok user => if user.value = 0 then none else some ⟨user, request.room⟩

/-- Why a first message of this content ends the connection. -/
inductive JoinRefused (s : Server) (tier : BusinessTier) (c : ChannelRef) (content : Frame.Bytes) :
    RequestError → Prop where
  | undecodable {fault : Json.Fault} (h : WrittenJoin.wire.decode content = .error fault) :
      JoinRefused s tier c content (.decode fault)
  | noToken {w : WrittenJoin} (h : WrittenJoin.wire.decode content = .ok w)
      (ht : w.authToken = "") : JoinRefused s tier c content .missingAuthToken
  | failed {request : ConnectRequest} {e : TierError} (h : requestOf? s.id content = some request)
      (ha : tier.connect request = .error e) : JoinRefused s tier c content (.tier e)
  | zeroUser {request : ConnectRequest} {user : UserId} (h : requestOf? s.id content = some request)
      (ha : tier.connect request = .ok user) (hu : user.value = 0) :
      JoinRefused s tier c content .rejected
  | bucket {request : ConnectRequest} {user : UserId} {e : BucketError}
      (h : requestOf? s.id content = some request) (ha : tier.connect request = .ok user)
      (hu : user.value ≠ 0) (hr : s.register user request.room c = .error e) :
      JoinRefused s tier c content (.bucket e)

/-- A first message of this content joins. -/
structure JoinAccepted (s : Server) (tier : BusinessTier) (c : ChannelRef) (content : Frame.Bytes)
    (request : ConnectRequest) (user : UserId) (s' : Server) : Prop where
  asked : requestOf? s.id content = some request
  answered : tier.connect request = .ok user
  assigned : user.value ≠ 0
  registered : s.register user request.room c = .ok s'

variable {s s' : Server} {tier : BusinessTier} {c : ChannelRef} {content : Frame.Bytes}
  {request : ConnectRequest} {user : UserId} {e : RequestError}

theorem refused_or_accepted (s : Server) (tier : BusinessTier) (c : ChannelRef)
    (content : Frame.Bytes) : (∃ e, JoinRefused s tier c content e) ∨
      ∃ request user s', JoinAccepted s tier c content request user s' := by
  cases hw : WrittenJoin.wire.decode content with
  | error fault => exact .inl ⟨_, .undecodable hw⟩
  | ok w =>
    by_cases ht : w.authToken = ""
    · exact .inl ⟨_, .noToken hw ht⟩
    · have hr : requestOf? s.id content =
          some ⟨w.authToken, w.room?.getD .none, s.id⟩ := by
        simp only [requestOf?, hw, if_neg ht]
      cases ha : tier.connect ⟨w.authToken, w.room?.getD .none, s.id⟩ with
      | error e => exact .inl ⟨_, .failed hr ha⟩
      | ok user =>
        by_cases hu : user.value = 0
        · exact .inl ⟨_, .zeroUser hr ha hu⟩
        · cases hb : s.register user (w.room?.getD .none) c with
          | error e => exact .inl ⟨_, .bucket hr ha hu hb⟩
          | ok s' => exact .inr ⟨_, user, s', hr, ha, hu, hb⟩

/-- What is left to do once the business tier has answered. -/
theorem joinBy_of_request (h : requestOf? s.id content = some request) :
    joinBy s tier c content =
      let calls := [Server.called (.connect request) (tier.connect request)]
      match s.finishJoin c request.room (tier.connect request) with
      | .error e => ⟨some (.joinFailed e), calls, s⟩
      | .ok (_, s') => ⟨none, calls, s'⟩ := by
  unfold requestOf? at h
  unfold joinBy
  rw [JoinRequest.decode_eq]
  cases hw : WrittenJoin.wire.decode content with
  | error fault => simp [hw] at h
  | ok w =>
    rw [hw] at h
    obtain ⟨ht, hrequest⟩ := Option.ite_none_left_eq_some.mp h
    cases hrequest
    have hjoin : s.joinRequest w.authToken (w.room?.getD .none) =
        .ok ⟨w.authToken, w.room?.getD .none, s.id⟩ := by
      rw [Server.joinRequest, if_neg (mt String.isEmpty_iff.mp ht)]
    simp only [Except.map, WrittenJoin.request, Server.join, hjoin]
    cases s.finishJoin c (w.room?.getD .none)
      (tier.connect ⟨w.authToken, w.room?.getD .none, s.id⟩) <;> rfl

theorem joinBy_of_refused (h : JoinRefused s tier c content e) : joinBy s tier c content =
    ⟨some (.joinFailed e), connectCalls s.id tier content, s⟩ := by
  cases h with
  | undecodable h =>
    simp [joinBy, JoinRequest.decode_eq, connectCalls, requestOf?, h, Except.map]
  | noToken h ht =>
    simp [joinBy, JoinRequest.decode_eq, connectCalls, requestOf?, h, ht, Except.map,
      WrittenJoin.request, Server.join, Server.joinRequest]
  | failed h ha =>
    rw [joinBy_of_request h, connectCalls, h]
    simp [Server.finishJoin, ha]
  | zeroUser h ha hu =>
    rw [joinBy_of_request h, connectCalls, h]
    simp [Server.finishJoin, ha, UserId.isUnassigned_iff.mpr hu]
  | bucket h ha hu hr =>
    rw [joinBy_of_request h, connectCalls, h]
    simp [Server.finishJoin, ha, mt UserId.isUnassigned_iff.mp hu, hr]

theorem joinBy_of_accepted (h : JoinAccepted s tier c content request user s') :
    joinBy s tier c content = ⟨none, connectCalls s.id tier content, s'⟩ := by
  rw [joinBy_of_request h.asked, connectCalls, h.asked]
  simp [Server.finishJoin, h.answered, mt UserId.isUnassigned_iff.mp h.assigned, h.registered]

end Transport

/-! ## The seat of a connection -/

/-- The move tears the channel down. -/
def Move.leaves (c : ChannelRef) : Move → Bool
  | .call (.leave _ c') => c' = c
  | _ => false

/-- The move neither joins over the channel nor tears it down. -/
def Move.spares (c : ChannelRef) (m : Move) : Bool :=
  !m.joins c && !m.leaves c

/-- The user of a channel that has joined, with the room. -/
def Channel.session? (channel : Channel) : Option DisconnectRequest :=
  if channel.isJoined then some ⟨channel.user, channel.room⟩ else none

theorem Channel.farewell?_of_closing (channel : Channel) (link : Option Link) :
    ({ channel with isClosing := true, link } : Channel).farewell? =
      channel.session?.filter fun r => r.room.isRoom := by
  cases hj : channel.isJoined <;> simp_all [farewell?, session?, isJoined, Option.filter]

namespace Server

/-- The teardown of the channel has not begun, and the channel has joined so, or not at all. -/
def Seats (s : Server) (c : ChannelRef) (session? : Option DisconnectRequest) : Prop :=
  ∃ channel, s.channel? c = some channel ∧ channel.isClosing = false ∧
    channel.session? = session?

/-- The server of an open connection, with all that is known of it whatever its clients do. -/
structure Hosts (s : Server) (id : String) (options : ConnectionOptions) (c : ChannelRef) :
    Prop where
  sound : s.hub.Sound
  staffed : s.hub.Staffed
  id : s.id = id
  options : s.options = options
  exists_channel : ∃ channel, s.channel? c = some channel

variable {s s' : Server} {id : String} {options : ConnectionOptions} {c : ChannelRef} {m : Move}
  {session? : Option DisconnectRequest} {tier : BusinessTier} {content : Frame.Bytes}
  {request : ConnectRequest} {user : UserId} {e : RequestError}

/-- A connection is opened with an empty seat. -/
theorem seats_openChannel (s : Server) : s.openChannel.2.Seats s.openChannel.1 none := by
  have hc := s.channel?_openChannel s.openChannel.1
  rw [if_pos rfl] at hc
  exact ⟨_, hc, rfl, rfl⟩

theorem hosts_openChannel (id : String) (options : ConnectionOptions) (config : BucketConfig)
    (generator : SequenceId.Generator) (run : List Move) :
    let s := (new id options config generator).after run
    s.openChannel.2.Hosts id options s.openChannel.1 := by
  intro s
  have hnew := Hub.sound_new config
  have hs : s.hub.Sound := sound_after hnew run
  have hst : s.hub.Staffed := staffed_after hnew (Hub.staffed_new config) run
  have hsettings := settings_after (s := new id options config generator) hnew run
  have ho : s.Outcome (.call .openChannel) (.opened s.openChannel.1) s.openChannel.2 := .opened
  obtain ⟨channel, hc, -⟩ := s.seats_openChannel
  exact ⟨ho.sound hs, staffed_step hs hst (.call .openChannel), hsettings.1, hsettings.2,
    channel, hc⟩

theorem Hosts.step (h : s.Hosts id options c) (m : Move) : (s.step m).2.Hosts id options c := by
  have ho := step_outcome h.sound m
  refine ⟨ho.sound h.sound, staffed_step h.sound h.staffed m, ho.settings.1.trans h.id,
    ho.settings.2.trans h.options, ?_⟩
  obtain ⟨channel, hc⟩ := h.exists_channel
  have hfate := ho.fate h.sound c
  rw [hc] at hfate
  generalize (s.step m).1 = a, (s.step m).2.channel? c = new at hfate
  cases hfate <;> exact ⟨_, rfl⟩

theorem Hosts.after (h : s.Hosts id options c) (ms : List Move) :
    (s.after ms).Hosts id options c := by
  induction ms generalizing s with
  | nil => exact h
  | cons m ms ih => exact ih (h.step m)

theorem Seats.step (h : s.Seats c session?) (hs : s.hub.Sound) (hm : m.spares c = true) :
    (s.step m).2.Seats c session? := by
  obtain ⟨channel, hc, hopen, hsession⟩ := h
  have hfate := (step_outcome hs m).fate hs c
  rw [hc] at hfate
  unfold Seats
  generalize (s.step m).1 = a, (s.step m).2.channel? c = new at hfate ⊢
  cases hfate with
  | kept f => exact ⟨_, rfl, hopen, hsession⟩
  | joined link hk => simp [Move.spares, Move.joins, hk] at hm
  | closed link => simp [Move.spares, Move.leaves] at hm

theorem Seats.after (h : s.Seats c session?) (hs : s.hub.Sound) {ms : List Move}
    (hm : ∀ m ∈ ms, m.spares c = true) : (s.after ms).Seats c session? := by
  induction ms generalizing s with
  | nil => exact h
  | cons m ms ih =>
    obtain ⟨hfirst, hlater⟩ := List.forall_mem_cons.mp hm
    exact ih (h.step hs hfirst) ((step_outcome hs m).sound hs) hlater

/-- A connection that is accepted is finished like one whose answer arrives late. -/
theorem step_of_accepted (h : JoinAccepted s tier c content request user s')
    (hc : ∃ channel, s.channel? c = some channel) :
    s.step (.call (.finishJoin c request.room (.ok user))) = (.joined (.ok user) [], s') := by
  obtain ⟨channel, hc⟩ := hc
  have hstray : s.isStray (.finishJoin c request.room (.ok user)) = false := by
    simp [isStray, Call.channel?, hc]
  rw [step, hstray]
  simp [perform, finishJoin, mt UserId.isUnassigned_iff.mp h.assigned, h.registered]

theorem Hosts.accepted (h : s.Hosts id options c)
    (ha : JoinAccepted s tier c content request user s') : s'.Hosts id options c := by
  have hstep := h.step (.call (.finishJoin c request.room (.ok user)))
  rwa [step_of_accepted ha h.exists_channel] at hstep

theorem admits_of_accepted (h : JoinAccepted s tier c content request user s')
    (hs : s.hub.Sound) {channel : Channel} (hc : s.channel? c = some channel) :
    ∃ b, s.Admits c user request.room b channel s' := by
  have hfinish : s.finishJoin c request.room (.ok user) = .ok (user, s') := by
    simp [finishJoin, mt UserId.isUnassigned_iff.mp h.assigned, h.registered]
  rcases finishJoin_cases hs hc request.room (.ok user) with
    ⟨e, -, he⟩ | ⟨user', b, s'', -, hok, ha⟩
  · rw [hfinish] at he
    cases he
  · rw [hfinish] at hok
    cases hok
    exact ⟨b, ha⟩

/-- A connection that is accepted has its seat. -/
theorem Seats.accepted (h : s.Seats c none) (hs : s.hub.Sound)
    (ha : JoinAccepted s tier c content request user s') :
    s'.Seats c (sessionOf? s.id tier content) := by
  obtain ⟨channel, hc, hopen, -⟩ := h
  obtain ⟨b, hadmits⟩ := admits_of_accepted ha hs hc
  obtain ⟨link, hchannels⟩ := hadmits.channels hs
  have hc' := hchannels c
  rw [if_pos rfl] at hc'
  refine ⟨_, hc', hopen, ?_⟩
  simp [Channel.session?, Channel.isJoined, hadmits.assigned, sessionOf?, ha.asked, ha.answered,
    ha.assigned]

/-- The bucket refuses no connection that is open and has not joined. -/
theorem Seats.sessionOf?_of_refused (h : s.Seats c none) (hs : s.hub.Sound)
    (hr : JoinRefused s tier c content e) : sessionOf? s.id tier content = none := by
  obtain ⟨channel, hc, hopen, hsession⟩ := h
  have hj : channel.isJoined = false := by
    simpa [Channel.session?] using hsession
  cases hr with
  | undecodable hw => simp [sessionOf?, requestOf?, hw]
  | noToken hw ht => simp [sessionOf?, requestOf?, hw, ht]
  | failed hr ha => simp [sessionOf?, hr, ha]
  | zeroUser hr ha hu => simp [sessionOf?, hr, ha, hu]
  | @bucket request user e hr ha hu hb =>
    have hassigned := mt UserId.isUnassigned_iff.mp hu
    rcases finishJoin_cases hs hc request.room (.ok user) with
      ⟨e', hverdict, -⟩ | ⟨user', b, s'', -, hok, -⟩
    · simp [verdict, hassigned, hj, hopen] at hverdict
    · simp [finishJoin, hassigned, hb] at hok

/-- The teardown of a connection tells that its user has left the room, if there is one. -/
theorem Seats.disconnect (h : s.Seats c session?) (hs : s.hub.Sound) :
    ((s.closeMailbox c).disconnect c).1 = session?.filter fun r => r.room.isRoom := by
  have hstep : (s.step (.call (.closeMailbox c))).2 = s.closeMailbox c := by
    obtain ⟨channel, hc, -⟩ := h
    have hstray : s.isStray (.closeMailbox c) = false := by
      simp [isStray, Call.channel?, hc]
    rw [Server.step, hstray]
    rfl
  have hclosed := h.step hs (m := .call (.closeMailbox c)) rfl
  have hsound := (step_outcome hs (.call (.closeMailbox c))).sound hs
  rw [hstep] at hclosed hsound
  obtain ⟨channel, hc, hopen, hsession⟩ := hclosed
  rw [disconnect_fst hsound hc hopen none, channel.farewell?_of_closing none, hsession]

/-- When the workers have run and the writer has written, the server has made moves that concern no
other connection. -/
theorem Hosts.exists_settle (h : s.Hosts id options c) :
    ∃ ms, (s.runWorkers.drain c).2 = s.after ms ∧ ∀ m ∈ ms, m.spares c = true := by
  have hrun := Server.runWorkers_eq_after h.staffed
  have hworked := h.after (s.hub.turns.map .work)
  rw [← hrun] at hworked
  obtain ⟨channel, hc⟩ := hworked.exists_channel
  have hstray : s.runWorkers.isStray (.drain c) = false := by
    simp [Server.isStray, Call.channel?, hc]
  refine ⟨s.hub.turns.map .work ++ [.call (.drain c)], ?_, ?_⟩
  · rw [Server.after_concat, ← hrun, Server.step, hstray]
    rfl
  · intro m hm
    rcases List.mem_append.mp hm with hm | hm
    · obtain ⟨w, -, rfl⟩ := List.mem_map.mp hm
      rfl
    · rw [List.mem_singleton.mp hm]
      rfl

end Server

end ChatRelay
