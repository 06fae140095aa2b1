import ChatRelay.Proofs.Relay.LeaveLog
import ChatRelay.Transport.Raw

/-!
# The protocol of raw connections

What the reader of a raw connection asks of the business tier, and when it gives up, is settled by a
machine that knows little of the server: its identifier, the number of the connection, whether the
connection has joined, and whether its teardown has begun (`Standing`). A server is mapped to the
standing of a connection (`Server.standing?`), one payload is one step of the machine, and so is
anything else that happens at the server (`Represents`). Whole readings follow by induction, and
what order the calls have is read off the machine.

The reader waits for each answer and takes no further payload meanwhile. What it asks depends on
the payload and the server's identifier, and what comes of the answer on the server as it is then.
Things that happen during the wait are therefore put before the payload, at whose place the tier
answers.
-/

namespace ChatRelay

open Transport

/-- The move is a join over the channel, successful or not. -/
def Move.joins (c : ChannelRef) : Move → Bool
  | .call k => k.entry?.any fun (c', _) => c' = c
  | .work _ => false

namespace Transport

/-! ## Readings -/

/-- What happens while a raw connection is read. -/
inductive Reading where
  /-- A payload arrives; the business tier answers as it does at that time. -/
  | payload (tier : BusinessTier) (bytes : Frame.Bytes)
  /-- Something else happens at the server. -/
  | move (m : Move)

/-- Act on the payloads in turn, up to one that ends the connection, while other things happen. -/
def readAll (s : Server) (c : ChannelRef) : List Reading → Progress RequestError
  | [] => ⟨none, [], s⟩
  | .move m :: rest => readAll (s.step m).2 c rest
  | .payload tier bytes :: rest =>
    let p := takePayload s tier c bytes
    match p.ended with
    | some _ => p
    | none =>
      let later := readAll p.server c rest
      { later with calls := p.calls ++ later.calls }

/-- Where nothing else happens, a reading is `takePayloads`. -/
theorem readAll_payloads (s : Server) (c : ChannelRef)
    (payloads : List (BusinessTier × Frame.Bytes)) :
    readAll s c (payloads.map fun x => .payload x.1 x.2) = takePayloads s c payloads := by
  induction payloads generalizing s with
  | nil => rfl
  | cons x payloads ih =>
    obtain ⟨tier, bytes⟩ := x
    rw [List.map_cons, readAll, takePayloads]
    cases (takePayload s tier c bytes).ended with
    | some e => rfl
    | none => simp only [ih]

/-! ## The machine -/

/-- What the reader of a raw connection goes by. -/
structure Standing where
  serverId : String
  connId : Nat
  isJoined : Bool
  isClosing : Bool

/-- What the machine does: the error that ends the connection, if any, the calls, and the standing
afterwards. -/
structure Reaction where
  ended : Option RequestError
  calls : List TierCall
  next : Standing

/-- The message of a payload, or why the payload ends the connection: it holds no message, or one
without a token or without a positive room. -/
def validMessage (bytes : Frame.Bytes) : Except RequestError TcpMessage :=
  match TcpMessage.wire.decode bytes with
  | .error fault => .error (.decode fault)
  | .ok m =>
    if m.authToken = "" then .error .missingAuthToken
    else if m.room.value ≤ 0 then .error (.invalidRoomId m.room)
    else .ok m

/-- The call that hands chat to the business tier. -/
def handOver (tier : BusinessTier) (m : TcpMessage) : TierCall :=
  let request := ⟨m.msg, m.fromUser, m.fromUserName, m.room, 3⟩
  Server.called (.sendRoom request) (tier.sendRoom request)

namespace Standing

/-- Ask the business tier who joins. The connection ends if the call fails, if the tier knows no
user, or if the teardown has begun. -/
def ask (r : Standing) (tier : BusinessTier) (request : ConnectRequest) : Reaction :=
  match tier.connect request with
  | .error e => ⟨some (.tier e), [⟨.connect request, false⟩], r⟩
  | .ok user =>
    if user.value = 0 then ⟨some .rejected, [⟨.connect request, true⟩], r⟩
    else if r.isClosing then
      ⟨some (.bucket (.closing r.connId)), [⟨.connect request, true⟩], r⟩
    else ⟨none, [⟨.connect request, true⟩], { r with isJoined := true }⟩

/-- Only a first join and, after it, chat in a room lead to a call. -/
def act (r : Standing) (tier : BusinessTier) (m : TcpMessage) : Reaction :=
  if m.op = 6 ∧ r.isJoined = false then r.ask tier ⟨m.authToken, m.room, r.serverId⟩
  else if m.op = 3 ∧ r.isJoined = true then ⟨none, [handOver tier m], r⟩
  else ⟨none, [], r⟩

/-- A payload is checked before anything else. -/
def take (r : Standing) (tier : BusinessTier) (bytes : Frame.Bytes) : Reaction :=
  match validMessage bytes with
  | .error e => ⟨some e, [], r⟩
  | .ok m => r.act tier m

/-- A teardown of its channel is all that the machine sees of other things. -/
def observe (r : Standing) (c : ChannelRef) : Move → Standing
  | .call (.leave _ c') => if c' = c then { r with isClosing := true } else r
  | _ => r

/-- What the machine does in a reading. -/
def run (r : Standing) (c : ChannelRef) : List Reading → Reaction
  | [] => ⟨none, [], r⟩
  | .move m :: rest => (r.observe c m).run c rest
  | .payload tier bytes :: rest =>
    let q := r.take tier bytes
    match q.ended with
    | some _ => q
    | none =>
      let later := q.next.run c rest
      { later with calls := q.calls ++ later.calls }

end Standing

end Transport

/-! ## A server as the machine sees it -/

namespace Server

variable {s s' : Server} {m : Move} {a : Answer} {c : ChannelRef} {channel : Channel}
  {user : UserId} {room : RoomId} {b : Bucket}

/-- The standing of a connection. -/
def standing? (s : Server) (c : ChannelRef) : Option Standing :=
  (s.channel? c).map fun ch => ⟨s.id, ch.connId, ch.isJoined, ch.isClosing⟩

/-- The hub is sound, and the connection stands so. -/
structure Represents (s : Server) (c : ChannelRef) (r : Standing) : Prop where
  sound : s.hub.Sound
  standing? : s.standing? c = some r

variable {r : Standing}

theorem Represents.exists_channel (h : s.Represents c r) : ∃ channel, s.channel? c = some channel ∧
    r = ⟨s.id, channel.connId, channel.isJoined, channel.isClosing⟩ := by
  obtain ⟨channel, hc, hr⟩ := Option.map_eq_some_iff.mp h.standing?
  exact ⟨channel, hc, hr.symm⟩

theorem Represents.isJoined (h : s.Represents c r) :
    (s.channel? c).any Channel.isJoined = r.isJoined := by
  obtain ⟨channel, hc, rfl⟩ := h.exists_channel
  rw [hc, Option.any_some]

/-- A connection that is admitted has joined, and nothing else about it changes. -/
theorem Represents.admits (h : s.Represents c r) (ha : s.Admits c user room b channel s') :
    s'.standing? c = some { r with isJoined := true } := by
  obtain ⟨link, hchannels⟩ := ha.channels h.sound
  obtain ⟨channel', hc, rfl⟩ := h.exists_channel
  obtain rfl : channel' = channel := Option.some.inj (hc.symm.trans ha.channel?)
  have hid : s'.id = s.id := by rw [ha.rest]
  rw [Server.standing?, hchannels, if_pos rfl, hid]
  simp [Channel.isJoined, ha.assigned]

theorem observe_of_ne_leave (hm : ∀ tier, m ≠ .call (.leave tier c)) : r.observe c m = r := by
  unfold Standing.observe
  split
  next tier c' =>
    by_cases hc : c' = c
    · exact absurd rfl (hc ▸ hm tier)
    · rw [if_neg hc]
  next => rfl

/-- A move that is no join over the channel changes its standing as the machine says. -/
theorem Represents.step (h : s.Represents c r) (hm : m.joins c = false) :
    (s.step m).2.Represents c (r.observe c m) := by
  have ho := step_outcome h.sound m
  refine ⟨ho.sound h.sound, ?_⟩
  obtain ⟨channel, hc, rfl⟩ := h.exists_channel
  rw [Server.standing?, ho.settings.1]
  by_cases hleave : ∃ tier, m = .call (.leave tier c)
  · obtain ⟨tier, rfl⟩ := hleave
    rw [channel?_leave h.sound hc, Standing.observe, if_pos rfl]
    rfl
  · rw [observe_of_ne_leave (not_exists.mp hleave)]
    have hfate := ho.fate h.sound c
    rw [hc] at hfate
    generalize (s.step m).1 = a, (s.step m).2.channel? c = new at hfate
    cases hfate with
    | kept => rfl
    | joined link hk => simp [Move.joins, hk] at hm
    | closed => exact absurd ⟨_, rfl⟩ hleave

/-! ## One payload -/

/-- The server has come to where the machine has. -/
structure Follows (p : Progress RequestError) (c : ChannelRef) (q : Reaction) : Prop where
  ended : p.ended = q.ended
  calls : p.calls = q.calls
  represents : p.server.Represents c q.next

theorem readMessage_eq (bytes : Frame.Bytes) : readMessage bytes = validMessage bytes := by
  unfold readMessage validMessage
  cases TcpMessage.wire.decode bytes with
  | error fault => rfl
  | ok m =>
    have htoken : m.authToken.isEmpty = true ↔ m.authToken = "" := String.isEmpty_iff
    have hroom : m.room.isPositive = true ↔ ¬m.room.value ≤ 0 := by
      rw [RoomId.isPositive, decide_eq_true_iff, Int64.not_le]
    dsimp only
    by_cases ht : m.authToken = ""
    · rw [if_pos (htoken.mpr ht), if_pos ht]
    · rw [if_neg (mt htoken.mp ht), if_neg ht]
      by_cases hr : m.room.value ≤ 0
      · rw [if_neg (fun hp => hroom.mp hp hr), if_pos hr]
      · rw [if_pos (hroom.mpr hr), if_neg hr]

theorem authToken_of_validMessage {bytes : Frame.Bytes} {m : TcpMessage}
    (h : validMessage bytes = .ok m) : m.authToken ≠ "" := by
  unfold validMessage at h
  split at h
  next => cases h
  next m' _ =>
    split at h
    next => cases h
    next ht =>
      split at h
      next => cases h
      next =>
        cases h
        exact ht

theorem sendRoom_snd (s : Server) (tier : BusinessTier) (c : ChannelRef) (m : TcpMessage) :
    (s.sendRoom tier c m).2 =
      if (s.channel? c).any Channel.isJoined then [handOver tier m] else [] := by
  rw [sendRoom, sendRoomRequest]
  cases (s.channel? c).any Channel.isJoined <;> rfl

/-- What the outcome of a join means to the reader. -/
def joinProgress : Except RequestError UserId × List TierCall × Server → Progress RequestError
  | (.error e, calls, s) => ⟨some e, calls, s⟩
  | (.ok _, calls, s) => ⟨none, calls, s⟩

/-- Two operation codes have a meaning to the reader, and each of them either before or after the
join. -/
theorem actOn_eq (s : Server) (tier : BusinessTier) (c : ChannelRef) (m : TcpMessage) :
    actOn s tier c m =
      if m.op = 6 ∧ (s.channel? c).any Channel.isJoined = false then
        joinProgress (s.join tier c m.authToken m.room)
      else if m.op = 3 ∧ (s.channel? c).any Channel.isJoined = true then
        ⟨none, [handOver tier m], s⟩
      else ⟨none, [], s⟩ := by
  have h6 : OpCode.ofInt32? m.op = some .buildTcpConn ↔ m.op = 6 := OpCode.ofInt32?_eq_some_iff
  have h3 : OpCode.ofInt32? m.op = some .roomSend ↔ m.op = 3 := OpCode.ofInt32?_eq_some_iff
  unfold actOn
  split
  next hcode =>
    rw [h6.mp hcode]
    cases (s.channel? c).any Channel.isJoined with
    | true => rfl
    | false => rfl
  next hcode =>
    rw [h3.mp hcode, sendRoom_snd]
    cases (s.channel? c).any Channel.isJoined <;> rfl
  next hjoin hchat =>
    rw [if_neg fun h => hjoin (h6.mpr h.1), if_neg fun h => hchat (h3.mpr h.1)]

/-- The machine joins as a channel does that has not joined yet. -/
theorem ask_eq (hj : channel.isJoined = false) (tier : BusinessTier) (request : ConnectRequest)
    (serverId : String) :
    (Standing.mk serverId channel.connId false channel.isClosing).ask tier request =
      let call := called (.connect request) (tier.connect request)
      match verdict channel (tier.connect request) with
      | .error e => ⟨some e, [call], ⟨serverId, channel.connId, false, channel.isClosing⟩⟩
      | .ok _ => ⟨none, [call], ⟨serverId, channel.connId, true, channel.isClosing⟩⟩ := by
  unfold Standing.ask verdict
  cases tier.connect request with
  | error e => rfl
  | ok user =>
    have huser : user.isUnassigned = true ↔ user.value = 0 := beq_iff_eq
    by_cases hu : user.value = 0
    · simp [hu, huser, called]
    · cases hcl : channel.isClosing <;> simp [hu, huser, hj, called]

theorem follows_join (h : s.Represents c r) (hj : r.isJoined = false) (tier : BusinessTier)
    {token : String} (htoken : token ≠ "") (room : RoomId) :
    Follows (joinProgress (s.join tier c token room)) c
      (r.ask tier ⟨token, room, r.serverId⟩) := by
  obtain ⟨channel, hc, rfl⟩ := h.exists_channel
  have hrequest : s.joinRequest token room = .ok ⟨token, room, s.id⟩ := by
    rw [joinRequest, if_neg (mt String.isEmpty_iff.mp htoken)]
  dsimp only at hj
  rw [join, hrequest, hj, ask_eq hj]
  rw [hj] at h
  dsimp only
  rcases finishJoin_cases h.sound hc room (tier.connect ⟨token, room, s.id⟩) with
    ⟨e, hverdict, hfinish⟩ | ⟨user, b, s', hverdict, hfinish, ha⟩
  · rw [hverdict, hfinish]
    exact ⟨rfl, rfl, h⟩
  · have ho : s.Outcome (.call (.finishJoin c room (.ok user))) (.joined (.ok user) []) s' :=
      .admitted rfl ha
    rw [hverdict, hfinish]
    exact ⟨rfl, rfl, ho.sound h.sound, h.admits ha⟩

/-- The reader acts on a message as the machine does. -/
theorem follows_actOn (h : s.Represents c r) (tier : BusinessTier) {m : TcpMessage}
    (htoken : m.authToken ≠ "") : Follows (actOn s tier c m) c (r.act tier m) := by
  rw [actOn_eq, h.isJoined, Standing.act]
  split
  next hjoin => exact follows_join h hjoin.2 tier htoken m.room
  next =>
    split
    next => exact ⟨rfl, rfl, h⟩
    next => exact ⟨rfl, rfl, h⟩

theorem follows_takePayload (h : s.Represents c r) (tier : BusinessTier) (bytes : Frame.Bytes) :
    Follows (takePayload s tier c bytes) c (r.take tier bytes) := by
  rw [takePayload, readMessage_eq, Standing.take]
  cases hm : validMessage bytes with
  | error e => exact ⟨rfl, rfl, h⟩
  | ok m => exact follows_actOn h tier (authToken_of_validMessage hm)

/-! ## Whole readings -/

/-- The reader does what the machine does, whatever else happens at the server. -/
theorem follows_readAll {events : List Reading}
    (hevents : ∀ m, .move m ∈ events → m.joins c = false) (h : s.Represents c r) :
    Follows (readAll s c events) c (r.run c events) := by
  induction events generalizing s r with
  | nil => exact ⟨rfl, rfl, h⟩
  | cons event events ih =>
    have hlater : ∀ m, .move m ∈ events → m.joins c = false :=
      fun m hm => hevents m (.tail _ hm)
    cases event with
    | move m => exact ih hlater (h.step (hevents m (.head _)))
    | payload tier bytes =>
      have hfirst := follows_takePayload h tier bytes
      rw [readAll, Standing.run]
      dsimp only
      rw [hfirst.ended]
      cases he : (r.take tier bytes).ended with
      | some e => exact hfirst
      | none =>
        have hrest := ih hlater hfirst.represents
        refine ⟨hrest.ended, ?_, hrest.represents⟩
        dsimp only
        rw [hfirst.calls, hrest.calls]

end Server

/-! ## The order of the calls -/

namespace Transport

/-- The messages of the payloads, up to the first payload that is refused. -/
def validMessages : List Reading → List (BusinessTier × TcpMessage)
  | [] => []
  | .move _ :: rest => validMessages rest
  | .payload tier bytes :: rest =>
    match validMessage bytes with
    | .error _ => []
    | .ok m => (tier, m) :: validMessages rest

/-- The calls that hand over the chat among them, in its order. -/
def chatCalls (events : List Reading) : List TierCall :=
  ((validMessages events).filter fun x => x.2.op = 3).map fun x => handOver x.1 x.2

namespace Standing

variable {r : Standing} {c : ChannelRef}

@[simp] theorem isJoined_observe (r : Standing) (c : ChannelRef) (m : Move) :
    (r.observe c m).isJoined = r.isJoined := by
  unfold observe
  split
  next => split <;> rfl
  next => rfl

/-- A connection that has joined hands its chat over and asks nothing else. -/
theorem run_of_joined (hj : r.isJoined = true) (events : List Reading) :
    (r.run c events).calls = chatCalls events ∧ (r.run c events).next.isJoined = true := by
  induction events generalizing r with
  | nil => exact ⟨rfl, hj⟩
  | cons event events ih =>
    cases event with
    | move m => exact ih ((isJoined_observe r c m).trans hj)
    | payload tier bytes =>
      rw [run, take, chatCalls, validMessages]
      cases validMessage bytes with
      | error e => exact ⟨rfl, hj⟩
      | ok m =>
        have hact : r.act tier m = ⟨none, if m.op = 3 then [handOver tier m] else [], r⟩ := by
          by_cases h3 : m.op = 3 <;> simp [act, hj, h3]
        obtain ⟨hcalls, hjoined⟩ := ih hj
        dsimp only
        rw [hact]
        refine ⟨?_, hjoined⟩
        dsimp only
        rw [hcalls, chatCalls]
        by_cases h3 : m.op = 3 <;> simp [h3]

/-- Before the join, a payload ends the connection after at most one request to join, or it is
ignored, or it is the join. -/
theorem take_cases (hj : r.isJoined = false) (tier : BusinessTier) (bytes : Frame.Bytes) :
    (∃ e calls, r.take tier bytes = ⟨some e, calls, r⟩ ∧
      (calls = [] ∨ ∃ request succeeded, calls = [⟨.connect request, succeeded⟩])) ∨
    r.take tier bytes = ⟨none, [], r⟩ ∨
    ∃ request, r.take tier bytes =
      ⟨none, [⟨.connect request, true⟩], { r with isJoined := true }⟩ := by
  rw [take]
  cases validMessage bytes with
  | error e => exact .inl ⟨e, [], rfl, .inl rfl⟩
  | ok m =>
    dsimp only
    rw [act, hj]
    by_cases h6 : m.op = 6
    · rw [if_pos ⟨h6, rfl⟩, ask]
      split
      next e _ => exact .inl ⟨_, _, rfl, .inr ⟨_, _, rfl⟩⟩
      next user _ =>
        by_cases hu : user.value = 0
        · rw [if_pos hu]
          exact .inl ⟨_, _, rfl, .inr ⟨_, _, rfl⟩⟩
        · rw [if_neg hu]
          split
          next => exact .inl ⟨_, _, rfl, .inr ⟨_, _, rfl⟩⟩
          next => exact .inr (.inr ⟨_, rfl⟩)
    · rw [if_neg (fun h => h6 h.1), if_neg (fun h => Bool.false_ne_true h.2)]
      exact .inr (.inl rfl)

/-- Either no join succeeds, and at most one request to join is made, or there is one payload at
which it succeeds: its request comes first, and after it the chat of the later payloads. -/
theorem run_cases (hj : r.isJoined = false) (events : List Reading) :
    ((r.run c events).next.isJoined = false ∧ ((r.run c events).calls = [] ∨
      ∃ request succeeded, (r.run c events).calls = [⟨.connect request, succeeded⟩])) ∨
    ∃ before tier bytes later request, events = before ++ .payload tier bytes :: later ∧
      (r.run c before).next.isJoined = false ∧
      (r.run c (before ++ [.payload tier bytes])).next.isJoined = true ∧
      (r.run c events).calls = ⟨.connect request, true⟩ :: chatCalls later := by
  induction events generalizing r with
  | nil => exact .inl ⟨hj, .inl rfl⟩
  | cons event events ih =>
    cases event with
    | move m =>
      have hj' : (r.observe c m).isJoined = false := (isJoined_observe r c m).trans hj
      rcases ih hj' with hnone | ⟨before, tier, bytes, later, request, rfl, hjoin⟩
      · exact .inl hnone
      · exact .inr ⟨.move m :: before, tier, bytes, later, request, rfl, hjoin⟩
    | payload tier bytes =>
      rcases take_cases hj tier bytes with ⟨e, calls, htake, hcalls⟩ | htake | ⟨request, htake⟩
      · left
        rw [run, htake]
        exact ⟨hj, hcalls⟩
      · have hskip : ∀ events, r.run c (.payload tier bytes :: events) = r.run c events := by
          intro events
          rw [run, htake]
          rfl
        rcases ih hj with hnone | ⟨before, tier', bytes', later, request, rfl, hjoin⟩
        · left
          rw [hskip]
          exact hnone
        · right
          refine ⟨.payload tier bytes :: before, tier', bytes', later, request, rfl, ?_⟩
          rw [List.cons_append, hskip, hskip, hskip]
          exact hjoin
      · right
        have hjoined : ({ r with isJoined := true } : Standing).isJoined = true := rfl
        refine ⟨[], tier, bytes, events, request, rfl, hj, ?_, ?_⟩
        · rw [List.nil_append, run, htake]
          rfl
        · rw [run, htake]
          dsimp only
          rw [(run_of_joined hjoined events).1]
          rfl

end Standing

end Transport

namespace Server

/-- While a new connection is read, the business tier is called as the machine says, and the
connection ends when the machine says so, whatever else happens at the server; where nothing else
happens, the reader is `takePayloads`. At most one join succeeds, and all chat that is handed over
comes after it, in the order of the payloads. -/
theorem readAll_openChannel (id : String) (options : ConnectionOptions) (config : BucketConfig)
    (generator : SequenceId.Generator) (run : List Move) (events : List Reading) :
    let s₀ := (new id options config generator).after run
    let c := s₀.openChannel.1
    let s := s₀.openChannel.2
    (∀ m, .move m ∈ events → m.joins c = false) →
    let p := readAll s c events
    let q := (⟨id, s.connections, false, false⟩ : Standing).run c events
    let hasJoined := fun events => ((readAll s c events).server.channel? c).any Channel.isJoined
    (p.ended = q.ended ∧ p.calls = q.calls) ∧
    (∀ payloads, events = payloads.map (fun x => .payload x.1 x.2) →
      p = takePayloads s c payloads) ∧
    ((hasJoined events = false ∧
        (p.calls = [] ∨ ∃ request succeeded, p.calls = [⟨.connect request, succeeded⟩])) ∨
      ∃ before tier bytes later request, events = before ++ .payload tier bytes :: later ∧
        hasJoined before = false ∧ hasJoined (before ++ [.payload tier bytes]) = true ∧
        p.calls = ⟨.connect request, true⟩ :: chatCalls later) := by
  intro s₀ c s hevents p q hasJoined
  have hs₀ : s₀.hub.Sound := sound_after (Hub.sound_new config) run
  have hs : s.Represents c ⟨id, s.connections, false, false⟩ := by
    have hid : s.id = id :=
      (settings_after (s := new id options config generator) (Hub.sound_new config) run).1
    have hchannel := (channel?_openChannel s₀ c).trans (if_pos rfl)
    refine ⟨hs₀.addChannel _ _, ?_⟩
    rw [standing?, hid, hchannel]
    rfl
  have hjoined : ∀ events, (∀ m, .move m ∈ events → m.joins c = false) →
      hasJoined events =
        ((⟨id, s.connections, false, false⟩ : Standing).run c events).next.isJoined :=
    fun events hevents => (follows_readAll hevents hs).represents.isJoined
  have hfollows : Follows p c q := follows_readAll hevents hs
  refine ⟨⟨hfollows.ended, hfollows.calls⟩, ?_, ?_⟩
  · intro payloads he
    rw [← readAll_payloads, ← he]
  rw [hfollows.calls, hjoined events hevents]
  rcases Standing.run_cases (r := ⟨id, s.connections, false, false⟩) (c := c) rfl events with
    hnone | ⟨before, tier, bytes, later, request, rfl, hbefore, hafter, hcalls⟩
  · exact .inl hnone
  · right
    refine ⟨before, tier, bytes, later, request, rfl, ?_, ?_, hcalls⟩
    · rw [hjoined before fun m hm => hevents m (by simp [hm])]
      exact hbefore
    · rw [hjoined _ fun m hm => hevents m ?_]
      · exact hafter
      · simp only [List.mem_append, List.mem_singleton, reduceCtorEq, or_false] at hm
        simp [hm]

/-- Chat before the join is ignored. After the join two messages are handed over, the first of which
the business tier does not take, while another connection is opened. A message to no room ends the
connection, though the reader has no use for its code. -/
theorem readAll_openChannel_calls :
    let payload := fun (fault : Option TierFault) (op : Int32) (room : RoomId) (msg : String) =>
      Reading.payload (.rehearsal fault)
        (TcpMessage.wire.encode ⟨op, "token-5", room, msg, ⟨5⟩, "amy"⟩).toUTF8.toList
    let events := [payload none 3 ⟨7⟩ "early", payload none 6 ⟨7⟩ "",
      payload (some .timeout) 3 ⟨7⟩ "lost", .move (.call .openChannel), payload none 3 ⟨9⟩ "kept",
      payload none 2 ⟨0⟩ ""]
    let s₀ := new "relay" .standard ⟨1, 16, 16, 1, 1⟩ ⟨0, by decide, 0, 0⟩
    let p := readAll s₀.openChannel.2 s₀.openChannel.1 events
    (p.ended, p.calls) = (some (.invalidRoomId ⟨0⟩),
      [⟨.connect ⟨"token-5", ⟨7⟩, "relay"⟩, true⟩,
        ⟨.sendRoom ⟨"lost", ⟨5⟩, "amy", ⟨7⟩, 3⟩, false⟩,
        ⟨.sendRoom ⟨"kept", ⟨5⟩, "amy", ⟨9⟩, 3⟩, true⟩]) := by
  intro payload events s₀ p
  have hevents : ∀ m, .move m ∈ events → m.joins s₀.openChannel.1 = false := by
    intro m hm
    simp only [events, payload, List.mem_cons, reduceCtorEq, Reading.move.injEq, false_or, or_false,
      List.not_mem_nil] at hm
    rw [hm]
    rfl
  have hmachine := (readAll_openChannel "relay" .standard ⟨1, 16, 16, 1, 1⟩ ⟨0, by decide, 0, 0⟩ []
    events hevents).1
  exact (congrArg₂ Prod.mk hmachine.1 hmachine.2).trans (by decide +kernel)

end Server

end ChatRelay
