import ChatRelay.Proofs.Gateway.Run
import ChatRelay.Proofs.Transport.Joining
import Mathlib.Data.List.Induction

/-!
# The course of a WebSocket connection

A gateway is followed through everything that can happen to one of its WebSocket connections:
messages of every kind, the end of the stream, failures of the transport, seconds that pass, and,
in between, whatever else is done at the server. The business tier may answer differently at every
event. Pongs are messages like others here, so that a client which answers pings is one that sends
them.

What becomes of the connection is told by its events. The first text or binary message decides who
joins (`firstContent?`): it makes the only request to the business tier (`joinCalls`), and says who
has joined if nobody else meddles with the channel (`joined?`). `Ends` lists the events that end an
open connection. The teardown tells the business tier who has left, if that was a room
(`socket_course`).

A connection is open (`Live`) or has ended (`Over`). An event keeps it open or ends it, and one that
has ended stays so, with nothing more done for it.
-/

namespace ChatRelay

open Transport

/-- The call asks who joins. -/
def TierCall.isConnect (call : TierCall) : Bool :=
  match call.request with
  | .connect _ => true
  | .disconnect _ | .sendRoom _ => false

@[simp] theorem Server.request_called {α : Type} (request : TierRequest)
    (answer : Except TierError α) : (called request answer).request = request := by
  cases answer <;> rfl

namespace Gateway

/-! ## What happens to a connection -/

/-- What happens while a WebSocket connection is served. A client that answers pings sends its pongs
as messages. -/
inductive SocketEvent where
  /-- A message arrives; the business tier answers as it does at that time. -/
  | message (tier : BusinessTier) (m : WsMessage)
  | endOfStream (tier : BusinessTier)
  /-- The transport fails, be it because the client has gone or for another reason. -/
  | failure (tier : BusinessTier) (isGone : Bool)
  /-- A second passes. -/
  | second (tier : BusinessTier)
  /-- Something else happens at the server. -/
  | move (m : Move)

/-- An input arrives; nobody reads a connection that has ended. -/
def arrive (g : Gateway) (name : String) (tier : BusinessTier) (input : WsInput) (isGone : Bool) :
    Gateway :=
  g.reach name fun x => if x.isEnded then g else g.receiveInput tier x input isGone

/-- One event at the connection of a name. -/
def attend (g : Gateway) (name : String) : SocketEvent → Gateway
  | .message tier m => g.arrive name tier (.message m) false
  | .endOfStream tier => g.arrive name tier .endOfStream false
  | .failure tier isGone => g.arrive name tier .failure isGone
  | .second tier => g.tick tier
  | .move m => { g with server := (g.server.step m).2 }

/-- The gateway after events at the connection of a name. -/
def attendAll (g : Gateway) (name : String) (events : List SocketEvent) : Gateway :=
  events.foldl (fun g e => g.attend name e) g

/-- The connection of the name is read. -/
def isOpen (g : Gateway) (name : String) : Bool :=
  (g.client? name).any fun x => !x.isEnded

/-! ## What the events tell -/

namespace SocketEvent

/-- The tier that answers at an event. -/
def tier? : SocketEvent → Option BusinessTier
  | message tier _ | endOfStream tier | failure tier _ | second tier => some tier
  | move _ => none

/-- The content of a text or binary message. -/
def content? : SocketEvent → Option (BusinessTier × Frame.Bytes)
  | message tier m => m.content?.map fun content => (tier, content)
  | endOfStream _ | failure .. | second _ | move _ => none

end SocketEvent

/-- The first text or binary message. -/
def firstContent? (past : List SocketEvent) : Option (BusinessTier × Frame.Bytes) :=
  past.findSome? SocketEvent.content?

/-- The seconds since something arrived last, or since the beginning. -/
def silentFor (past : List SocketEvent) : Nat :=
  past.foldl (fun n e =>
    match e with
    | .second _ => n + 1
    | .move _ => n
    | .message .. | .endOfStream _ | .failure .. => 0) 0

/-- The calls that the first text or binary message leads to. -/
def joinCalls (serverId : String) (past : List SocketEvent) : List TierCall :=
  (firstContent? past).elim [] fun (tier, content) => connectCalls serverId tier content

/-- Who joins by the first text or binary message. -/
def joined? (serverId : String) (past : List SocketEvent) : Option DisconnectRequest :=
  (firstContent? past).bind fun (tier, content) => sessionOf? serverId tier content

/-- Why an event ends an open connection. `s` is the server at the event. -/
inductive Ends (pongWait : Nat) (s : Server) (c : ChannelRef) (past : List SocketEvent) :
    SocketEvent → WsEnd → Prop where
  | closed (tier : BusinessTier) : Ends pongWait s c past (.message tier .close) .peerClosed
  | endOfStream (tier : BusinessTier) : Ends pongWait s c past (.endOfStream tier) .peerClosed
  | failed (tier : BusinessTier) (isGone : Bool) :
      Ends pongWait s c past (.failure tier isGone) .failure
  | silent (tier : BusinessTier) (h : pongWait ≤ silentFor past + 1) :
      Ends pongWait s c past (.second tier) .deadline
  | refused {tier : BusinessTier} {m : WsMessage} {content : Frame.Bytes} {e : RequestError}
      (hfirst : firstContent? past = none) (hm : m.content? = some content)
      (h : JoinRefused s tier c content e) :
      Ends pongWait s c past (.message tier m) (.joinFailed e)

/-- No move of the events joins over the channel or tears it down. -/
def Undisturbed (c : ChannelRef) (past : List SocketEvent) : Prop :=
  ∀ m, .move m ∈ past → m.spares c = true

variable {g : Gateway} {name id : String} {options : ConnectionOptions} {c : ChannelRef}
  {past : List SocketEvent} {e : SocketEvent} {tier : BusinessTier} {x : Client} {how : WsEnd}
  {calls : List TierCall}

theorem firstContent?_concat (past : List SocketEvent) (e : SocketEvent) :
    firstContent? (past ++ [e]) = (firstContent? past).or e.content? := by
  rw [firstContent?, List.findSome?_append, List.findSome?_singleton]
  rfl

theorem silentFor_concat (past : List SocketEvent) (e : SocketEvent) :
    silentFor (past ++ [e]) =
      match e with
      | .second _ => silentFor past + 1
      | .move _ => silentFor past
      | .message .. | .endOfStream _ | .failure .. => 0 :=
  List.foldl_append

theorem attendAll_append (g : Gateway) (name : String) (past later : List SocketEvent) :
    g.attendAll name (past ++ later) = (g.attendAll name past).attendAll name later :=
  List.foldl_append

/-- The gateway's own events at an open connection are such events. -/
theorem handle_eq_attend (hx : g.client? name = some x) (hopen : x.isEnded = false)
    {hasAsked answersPings : Bool} {heardAt : Nat}
    (hw : x.wire = .socket hasAsked answersPings heardAt) (tier : BusinessTier) :
    (∀ m, g.handle (.message tier name m) = g.attend name
      (if g.server.options.maxMessageSize < contentSize m then .failure tier false
        else .message tier m)) ∧
      g.handle (.hangUp tier name) = g.attend name (.failure tier true) ∧
      g.handle (.second tier) = g.attend name (.second tier) := by
  refine ⟨fun m => ?_, ?_, rfl⟩
  · simp only [handle, reach, hx, Option.elim_some, receiveMessage]
    split <;> simp [attend, arrive, reach, hx, hopen]
  · simp [handle, attend, arrive, reach, hx, hopen, hangUp, hw]

/-! ## A gateway with one connection -/

theorem client?_of_clients (hx : g.clients = [x]) : g.client? x.name = some x := by
  simp [client?, hx]

theorem arrive_of_clients (hx : g.clients = [x]) (hopen : x.isEnded = false) (tier : BusinessTier)
    (input : WsInput) (isGone : Bool) :
    g.arrive x.name tier input isGone = g.receiveInput tier x input isGone := by
  simp [arrive, reach, client?_of_clients hx, hopen]

section

variable {hasAsked hasAsked' answersPings : Bool} {heardAt : Nat} {input : WsInput}
  {server : Server}

/-- An input that the reader survives. -/
theorem receiveInput_of_clients (hx : g.clients = [x])
    (hw : x.wire = .socket hasAsked answersPings heardAt)
    (h : takeInput g.server tier x.channel hasAsked input = (⟨none, calls, server⟩, hasAsked'))
    (isGone : Bool) :
    g.receiveInput tier x input isGone =
      { g with
        server
        clients := [{ x with wire := .socket hasAsked' answersPings g.now }]
        report := { g.report with calls := g.report.calls ++ calls } } := by
  simp [receiveInput, hw, h, setClient, hx, noteCalls]

/-- The connection of the name has ended so, and these calls were made for it. -/
structure Over (name : String) (how : WsEnd) (calls : List TierCall) (g : Gateway) : Prop where
  client : ∃ x, g.clients = [x] ∧ x.name = name ∧ x.isEnded = true
  calls : g.report.calls = calls
  ends : g.report.ends.map Prod.snd = [how.describe]

/-- An input that ends the reading is followed by the teardown. -/
theorem over_of_ended (hx : g.clients = [x]) (hends : g.report.ends = [])
    (hw : x.wire = .socket hasAsked answersPings heardAt)
    (h : takeInput g.server tier x.channel hasAsked input = (⟨some how, calls, server⟩, hasAsked'))
    (isGone : Bool) :
    Over x.name how
      (g.report.calls ++ calls ++ ((server.closeMailbox x.channel).leave tier x.channel).1)
      (g.receiveInput tier x input isGone) := by
  have hclients : (g.receiveInput tier x input isGone).clients =
      [{ x with wire := .socket hasAsked' answersPings g.now, isEnded := true }] := by
    cases isGone <;>
      simp [receiveInput, hw, h, finish, setClient, hx, noteCalls, noteEnd, noteReceived]
  refine ⟨⟨_, hclients, rfl, rfl⟩, ?_, ?_⟩
  · cases isGone <;>
      simp [receiveInput, hw, h, finish, setClient, noteCalls, noteEnd, noteReceived]
  · cases isGone <;>
      simp [receiveInput, hw, h, finish, setClient, noteCalls, noteEnd, noteReceived, hends]

end

theorem Over.settle (h : Over name how calls g) : Over name how calls g.settle := by
  obtain ⟨⟨x, hx, hname, hended⟩, hcalls, hends⟩ := h
  have hsettle : g.settle = { g with server := g.server.runWorkers } := by
    simp [Gateway.settle, hx, write, hended]
  rw [hsettle]
  exact ⟨⟨x, hx, hname, hended⟩, hcalls, hends⟩

/-- Nobody reads a connection that has ended. -/
theorem Over.arrive (h : Over name how calls g) (tier : BusinessTier) (input : WsInput)
    (isGone : Bool) : g.arrive name tier input isGone = g := by
  obtain ⟨x, hx, hname, hended⟩ := h.client
  simp [Gateway.arrive, reach, ← hname, client?_of_clients hx, hended]

/-- Nothing more comes of a connection that has ended. -/
theorem Over.attend (h : Over name how calls g) (e : SocketEvent) :
    Over name how calls (g.attend name e) := by
  cases e with
  | message | endOfStream | failure =>
    rw [Gateway.attend, h.arrive]
    exact h
  | second tier =>
    obtain ⟨x, hx, -, hended⟩ := h.client
    have htick : g.tick tier = ({ g with now := g.now + 1 } : Gateway).settle := by
      simp [tick, hx, tickClient, hended]
    rw [Gateway.attend, htick]
    exact Over.settle ⟨h.client, h.calls, h.ends⟩
  | move m => exact ⟨h.client, h.calls, h.ends⟩

theorem Over.isOpen (h : Over name how calls g) : g.isOpen name = false := by
  obtain ⟨x, hx, hname, hended⟩ := h.client
  simp [Gateway.isOpen, ← hname, client?_of_clients hx, hended]

/-! ## An open connection -/

theorem takeInput_ignored {s : Server} {hasAsked : Bool} {m : WsMessage} (hm : m ≠ .close)
    (h : m.content? = none ∨ hasAsked = true) :
    takeInput s tier c hasAsked (.message m) = (⟨none, [], s⟩, hasAsked) := by
  cases m <;> simp_all [takeInput, WsInput.end?, WsMessage.content?]

theorem takeInput_first {s : Server} {m : WsMessage} {content : Frame.Bytes}
    (hm : m.content? = some content) :
    takeInput s tier c false (.message m) = (joinBy s tier c content, true) := by
  cases m <;> simp_all [takeInput, WsInput.end?, WsMessage.content?]

/-- The client of an open connection after events. -/
def clientAfter (name : String) (c : ChannelRef) (acceptedAt heardAt : Nat)
    (past : List SocketEvent) : Client :=
  ⟨name, c, acceptedAt, .socket (firstContent? past).isSome false heardAt, false⟩

/-- An open connection after events: what is kept of it, and what was done for it. -/
structure Live (id : String) (options : ConnectionOptions) (name : String) (c : ChannelRef)
    (past : List SocketEvent) (g : Gateway) : Prop where
  hosts : g.server.Hosts id options c
  client : ∃ acceptedAt heardAt, g.clients = [clientAfter name c acceptedAt heardAt past] ∧
    heardAt + silentFor past = g.now
  calls : g.report.calls = joinCalls id past
  ends : g.report.ends = []
  seats : Undisturbed c past → g.server.Seats c (joined? id past)

theorem Live.isOpen (h : Live id options name c past g) : g.isOpen name = true := by
  obtain ⟨acceptedAt, heardAt, hx, -⟩ := h.client
  have hclient : g.client? name = _ := client?_of_clients hx
  rw [Gateway.isOpen, hclient]
  rfl

theorem Undisturbed.of_append {later : List SocketEvent} (h : Undisturbed c (past ++ later)) :
    Undisturbed c past :=
  fun m hm => h m (List.mem_append_left later hm)

/-- What is known goes on to hold after an event that says nothing new about who joins. -/
theorem Live.next (h : Live id options name c past g) {g' : Gateway}
    (hsame : firstContent? (past ++ [e]) = firstContent? past)
    (hhosts : g'.server.Hosts id options c) {acceptedAt heardAt : Nat}
    (hclients : g'.clients = [clientAfter name c acceptedAt heardAt past])
    (hsilent : heardAt + silentFor (past ++ [e]) = g'.now)
    (hcalls : g'.report.calls = g.report.calls) (hends : g'.report.ends = g.report.ends)
    (hseats : Undisturbed c (past ++ [e]) → ∀ session?, g.server.Seats c session? →
      g'.server.Seats c session?) : Live id options name c (past ++ [e]) g' where
  hosts := hhosts
  client := ⟨acceptedAt, heardAt, by rw [hclients, clientAfter, clientAfter, hsame], hsilent⟩
  calls := by rw [hcalls, h.calls, joinCalls, joinCalls, hsame]
  ends := hends.trans h.ends
  seats hu := by
    rw [joined?, hsame]
    exact hseats hu _ (h.seats hu.of_append)

theorem firstContent?_of_content? (he : e.content? = none) :
    firstContent? (past ++ [e]) = firstContent? past := by
  rw [firstContent?_concat, he, Option.or_none]

/-- A message that is ignored only shows that the client is there. -/
theorem Live.attend_ignored (h : Live id options name c past g) (tier : BusinessTier)
    {m : WsMessage} (hm : m ≠ .close)
    (hi : m.content? = none ∨ (firstContent? past).isSome = true) :
    Live id options name c (past ++ [.message tier m]) (g.attend name (.message tier m)) ∧
      (g.attend name (.message tier m)).server = g.server := by
  obtain ⟨acceptedAt, heardAt, hx, -⟩ := h.client
  have harrive : g.arrive name tier (.message m) false = _ := arrive_of_clients hx rfl ..
  have hsame : firstContent? (past ++ [.message tier m]) = firstContent? past := by
    rcases hi with hi | hi
    · exact firstContent?_of_content? (by simp [SocketEvent.content?, hi])
    · rw [firstContent?_concat, Option.or_of_isSome hi]
  have hsilent : g.now + silentFor (past ++ [.message tier m]) = g.now := by
    rw [silentFor_concat]
    rfl
  rw [Gateway.attend, harrive, receiveInput_of_clients hx rfl (takeInput_ignored hm hi)]
  exact ⟨h.next hsame h.hosts rfl hsilent (List.append_nil _) rfl fun _ _ hs => hs, rfl⟩

/-- The first text or binary message joins. -/
theorem Live.attend_accepted (h : Live id options name c past g) {m : WsMessage}
    {content : Frame.Bytes} (hfirst : firstContent? past = none) (hm : m.content? = some content)
    {request : ConnectRequest} {user : UserId} {s' : Server}
    (ha : JoinAccepted g.server tier c content request user s') :
    Live id options name c (past ++ [.message tier m]) (g.attend name (.message tier m)) := by
  obtain ⟨acceptedAt, heardAt, hx, -⟩ := h.client
  have harrive : g.arrive name tier (.message m) false = _ := arrive_of_clients hx rfl ..
  have hnew : firstContent? (past ++ [.message tier m]) = some (tier, content) := by
    simp [firstContent?_concat, hfirst, SocketEvent.content?, hm]
  have htake : takeInput g.server tier c (firstContent? past).isSome (.message m) =
      (⟨none, connectCalls id tier content, s'⟩, true) := by
    rw [hfirst, Option.isSome_none, takeInput_first hm, joinBy_of_accepted ha, h.hosts.id]
  rw [Gateway.attend, harrive, receiveInput_of_clients hx rfl htake]
  refine ⟨h.hosts.accepted ha, ⟨acceptedAt, g.now, ?_, ?_⟩, ?_, h.ends, fun hu => ?_⟩
  · simp [clientAfter, hnew]
  · rw [silentFor_concat]
    rfl
  · simp [h.calls, joinCalls, hfirst, hnew]
  · have hseats : g.server.Seats c none := by
      simpa [joined?, hfirst] using h.seats hu.of_append
    have hjoined := hseats.accepted h.hosts.sound ha
    rw [h.hosts.id] at hjoined
    simpa [joined?, hnew] using hjoined

theorem Live.attend_move (h : Live id options name c past g) (m : Move) :
    Live id options name c (past ++ [.move m]) (g.attend name (.move m)) := by
  obtain ⟨acceptedAt, heardAt, hx, hsilent⟩ := h.client
  have hsilent' : heardAt + silentFor (past ++ [.move m]) = g.now := by
    rw [silentFor_concat]
    exact hsilent
  refine h.next (firstContent?_of_content? rfl) (h.hosts.step m) hx hsilent' rfl rfl ?_
  exact fun hu _ hs => hs.step h.hosts.sound (hu m (by simp))

/-! ## A second -/

/-- What a writer sends on a WebSocket connection only shows in what was received. -/
theorem exists_send_eq {hasAsked answersPings : Bool} {heardAt : Nat}
    (hw : x.wire = .socket hasAsked answersPings heardAt) (g : Gateway) (o : Outgoing) :
    ∃ received, g.send x o = { g with report := { g.report with received } } := by
  simp only [send, hw]
  exact ⟨_, rfl⟩

theorem exists_foldl_send_eq {hasAsked answersPings : Bool} {heardAt : Nat}
    (hw : x.wire = .socket hasAsked answersPings heardAt) (g : Gateway) (msgs : List Msg) :
    ∃ received, msgs.foldl (fun g msg => g.send x (.message msg)) g =
      { g with report := { g.report with received } } := by
  induction msgs generalizing g with
  | nil => exact ⟨_, rfl⟩
  | cons msg msgs ih =>
    obtain ⟨first, hfirst⟩ := exists_send_eq hw g (.message msg)
    obtain ⟨received, hlater⟩ := ih (g.send x (.message msg))
    rw [List.foldl_cons, hlater, hfirst]
    exact ⟨received, rfl⟩

/-- An open connection's mailbox is emptied. -/
theorem exists_settle_eq (hx : g.clients = [x]) (hopen : x.isEnded = false)
    {hasAsked answersPings : Bool} {heardAt : Nat}
    (hw : x.wire = .socket hasAsked answersPings heardAt) :
    ∃ received, g.settle = { g with
      server := (g.server.runWorkers.drain x.channel).2
      report := { g.report with received } } := by
  have hwrite : g.settle = write { g with server := g.server.runWorkers } x := by
    simp [Gateway.settle, hx]
  rw [hwrite, write, hopen]
  exact exists_foldl_send_eq hw _ _

theorem Live.settle (h : Live id options name c past g) :
    Live id options name c past g.settle := by
  obtain ⟨acceptedAt, heardAt, hx, hsilent⟩ := h.client
  obtain ⟨ms, hms, hspares⟩ := h.hosts.exists_settle
  obtain ⟨received, hsettle⟩ := exists_settle_eq hx rfl rfl
  rw [hsettle]
  refine ⟨?_, ⟨acceptedAt, heardAt, hx, hsilent⟩, h.calls, h.ends, fun hu => ?_⟩
  · exact hms ▸ h.hosts.after ms
  · exact hms ▸ (h.seats hu).after h.hosts.sound hspares

/-- The gateway when a second has passed and writers have sent. -/
def passSecond (g : Gateway) (received : List (String × Received)) : Gateway :=
  { g with now := g.now + 1, report := { g.report with received } }

/-- A second with a single connection, whose client does not answer pings by itself. -/
theorem exists_tick_eq (hx : g.clients = [x]) (hopen : x.isEnded = false)
    {hasAsked : Bool} {heardAt : Nat} (hw : x.wire = .socket hasAsked false heardAt)
    (tier : BusinessTier) : ∃ received, g.tick tier =
      (if heardAt + g.server.options.pongWait ≤ g.now + 1 then
        (g.passSecond received).arrive x.name tier .silence false
      else g.passSecond received).settle := by
  have harrive (received : List (String × Received)) :
      (g.passSecond received).arrive x.name tier .silence false =
        (g.passSecond received).receiveInput tier x .silence false :=
    have hx' : (g.passSecond received).clients = [x] := hx
    arrive_of_clients hx' hopen ..
  have htick : g.tick tier = (tickClient tier { g with now := g.now + 1 } x).settle := by
    simp [tick, hx]
  simp only [htick, tickClient, hopen, hw, harrive]
  cases isHeartbeatDue g.server.options.pingPeriod x.acceptedAt (g.now + 1) with
  | true =>
    obtain ⟨received, hsend⟩ := exists_send_eq hw { g with now := g.now + 1 } .heartbeat
    exact ⟨received, by simp [hsend, passSecond]⟩
  | false => exact ⟨g.report.received, by simp [passSecond]⟩

/-- A second passes; whether it ends the connection is told afterwards. -/
theorem Live.pass_second (h : Live id options name c past g) (tier : BusinessTier)
    (received : List (String × Received)) :
    Live id options name c (past ++ [.second tier]) (g.passSecond received) := by
  obtain ⟨acceptedAt, heardAt, hx, hsilent⟩ := h.client
  have hsilent' : heardAt + silentFor (past ++ [.second tier]) = g.now + 1 := by
    rw [silentFor_concat, ← hsilent]
    rfl
  exact h.next (firstContent?_of_content? rfl) h.hosts hx hsilent' rfl rfl fun _ _ hs => hs

/-- A second ends the connection if the client has been silent for too long. -/
theorem Live.attend_second (h : Live id options name c past g) (tier : BusinessTier) :
    ∃ received, g.attend name (.second tier) =
      (if options.pongWait ≤ silentFor past + 1 then
        (g.passSecond received).arrive name tier .silence false
      else g.passSecond received).settle := by
  obtain ⟨acceptedAt, heardAt, hx, hsilent⟩ := h.client
  have hwait : heardAt + g.server.options.pongWait ≤ g.now + 1 ↔
      options.pongWait ≤ silentFor past + 1 := by
    rw [h.hosts.options]
    omega
  simp only [← hwait]
  exact exists_tick_eq hx rfl rfl tier

/-! ## The end -/

/-- The calls of a teardown. -/
def leaveCallsOf (tier : BusinessTier) (left? : Option DisconnectRequest) : List TierCall :=
  left?.toList.map fun r => Server.called (.disconnect r) (tier.disconnect r)

/-- The teardown follows an input that ends the connection. -/
theorem Live.over_of_takeInput (h : Live id options name c past g) {input : WsInput}
    {how : WsEnd} {calls : List TierCall} {hasAsked : Bool}
    (htake : takeInput g.server tier c (firstContent? past).isSome input =
      (⟨some how, calls, g.server⟩, hasAsked)) (isGone : Bool) : ∃ left?,
    Over name how (joinCalls id past ++ calls ++ leaveCallsOf tier left?)
      (g.arrive name tier input isGone) ∧
      (Undisturbed c past → left? = (joined? id past).filter fun r => r.room.isRoom) := by
  obtain ⟨acceptedAt, heardAt, hx, -⟩ := h.client
  have harrive : g.arrive name tier input isGone = _ := arrive_of_clients hx rfl ..
  refine ⟨((g.server.closeMailbox c).disconnect c).1, ?_, fun hu => ?_⟩
  · have hover := over_of_ended hx h.ends rfl htake isGone
    rw [harrive, ← h.calls]
    exact hover
  · exact (h.seats hu).disconnect h.hosts.sound

/-- An event that is no move leaves the connection undisturbed. -/
theorem Undisturbed.concat (h : Undisturbed c past) (he : ∀ m, e ≠ .move m) :
    Undisturbed c (past ++ [e]) := by
  intro m hm
  rcases List.mem_append.mp hm with hm | hm
  · exact h m hm
  · exact absurd (List.mem_singleton.mp hm).symm (he m)

/-- The event has ended the connection, and nothing was done for it but what its first message asked
for and the teardown, at which the tier of the event is told who has left. -/
def EndedBy (id name : String) (c : ChannelRef) (past : List SocketEvent) (e : SocketEvent)
    (how : WsEnd) (g : Gateway) : Prop :=
  ∃ tier left?, e.tier? = some tier ∧
    Over name how (joinCalls id (past ++ [e]) ++ leaveCallsOf tier left?) g ∧
    (Undisturbed c past → left? = (joined? id (past ++ [e])).filter fun r => r.room.isRoom)

/-- Most ends lead to no call of their own and say nothing about who joins. -/
theorem Live.endedBy_of_takeInput (h : Live id options name c past g) {input : WsInput}
    (htier : e.tier? = some tier) (hcontent : e.content? = none)
    (htake : takeInput g.server tier c (firstContent? past).isSome input =
      (⟨some how, [], g.server⟩, (firstContent? past).isSome)) (isGone : Bool) :
    EndedBy id name c past e how (g.arrive name tier input isGone) := by
  have hsame : firstContent? (past ++ [e]) = firstContent? past :=
    firstContent?_of_content? hcontent
  obtain ⟨left?, hover, hleft⟩ := h.over_of_takeInput htake isGone
  rw [List.append_nil] at hover
  refine ⟨tier, left?, htier, ?_, ?_⟩
  · rw [joinCalls, hsame]
    exact hover
  · rw [joined?, hsame]
    exact hleft

/-- An event that ends an open connection. -/
theorem Live.endedBy_of_ends (h : Live id options name c past g)
    (he : Ends options.pongWait g.server c past e how) :
    EndedBy id name c past e how (g.attend name e) := by
  cases he with
  | closed tier => exact h.endedBy_of_takeInput rfl rfl rfl false
  | endOfStream tier => exact h.endedBy_of_takeInput rfl rfl rfl false
  | failed tier isGone => exact h.endedBy_of_takeInput rfl rfl rfl isGone
  | silent tier hw =>
    obtain ⟨received, hsecond⟩ := h.attend_second tier
    have htake {hasAsked : Bool} : takeInput (g.passSecond received).server tier c hasAsked
        .silence = (⟨some .deadline, [], (g.passSecond received).server⟩, hasAsked) := rfl
    obtain ⟨left?, hover, hleft⟩ := (h.pass_second tier received).over_of_takeInput htake false
    rw [hsecond, if_pos hw]
    refine ⟨tier, left?, rfl, Over.settle ?_, fun hu => hleft (hu.concat nofun)⟩
    simpa using hover
  | @refused tier m content e hfirst hm hr =>
    have hnew : firstContent? (past ++ [.message tier m]) = some (tier, content) := by
      simp [firstContent?_concat, hfirst, SocketEvent.content?, hm]
    have htake : takeInput g.server tier c (firstContent? past).isSome (.message m) =
        (⟨some (.joinFailed e), connectCalls id tier content, g.server⟩, true) := by
      rw [hfirst, Option.isSome_none, takeInput_first hm, joinBy_of_refused hr, h.hosts.id]
    obtain ⟨left?, hover, hleft⟩ := h.over_of_takeInput htake false
    refine ⟨tier, left?, rfl, ?_, fun hu => ?_⟩
    · rw [Gateway.attend]
      simpa [joinCalls, hfirst, hnew] using hover
    · have hseats : g.server.Seats c none := by
        simpa [joined?, hfirst] using h.seats hu
      have hnone := hseats.sessionOf?_of_refused h.hosts.sound hr
      rw [h.hosts.id] at hnone
      rw [hleft hu]
      simp [joined?, hfirst, hnew, hnone]

/-- An event that does not end an open connection leaves it open. -/
theorem Live.attend (h : Live id options name c past g)
    (hn : ∀ how, ¬ Ends options.pongWait g.server c past e how) :
    Live id options name c (past ++ [e]) (g.attend name e) := by
  cases e with
  | message tier m =>
    have hm : m ≠ .close := by
      rintro rfl
      exact hn _ (.closed tier)
    cases hcontent : m.content? with
    | none => exact (h.attend_ignored tier hm (.inl hcontent)).1
    | some content =>
      cases hfirst : firstContent? past with
      | some first => exact (h.attend_ignored tier hm (.inr (by rw [hfirst]; rfl))).1
      | none =>
        rcases refused_or_accepted g.server tier c content with ⟨e, hr⟩ | ⟨request, user, s', ha⟩
        · exact absurd (.refused hfirst hcontent hr) (hn _)
        · exact h.attend_accepted hfirst hcontent ha
  | endOfStream tier => exact absurd (.endOfStream tier) (hn _)
  | failure tier isGone => exact absurd (.failed tier isGone) (hn _)
  | second tier =>
    have hw : ¬ options.pongWait ≤ silentFor past + 1 := fun hw => hn _ (.silent tier hw)
    obtain ⟨received, hsecond⟩ := h.attend_second tier
    rw [hsecond, if_neg hw]
    exact (h.pass_second tier received).settle
  | move m => exact h.attend_move m

/-! ## The whole course -/

/-- A connection is accepted open. -/
theorem live_accept (g : Gateway) (name id : String) {options : ConnectionOptions}
    (config : BucketConfig) (generator : SequenceId.Generator) (run : List Move)
    (hp : options.pingPeriod ≠ 0) :
    let s := (Server.new id options config generator).after run
    Live id options name s.openChannel.1 []
      (({ g with server := s, clients := [], report := .nothing } : Gateway).accept name
        (.socket false false g.now)) := by
  intro s
  have hhosts := Server.hosts_openChannel id options config generator run
  have hperiod : isPeriod s.options.pingPeriod = true := by
    have hoptions : s.options = options := hhosts.options
    rw [hoptions]
    exact decide_eq_true hp
  rw [accept_eq hperiod]
  exact ⟨hhosts, ⟨g.now, g.now, rfl, rfl⟩, rfl, rfl, fun _ => s.seats_openChannel⟩

theorem EndedBy.attend (h : EndedBy id name c past e how g) (e' : SocketEvent) :
    EndedBy id name c past e how (g.attend name e') := by
  obtain ⟨tier, left?, htier, hover, hleft⟩ := h
  exact ⟨tier, left?, htier, hover.attend e', hleft⟩

theorem EndedBy.attendAll (h : EndedBy id name c past e how g) (later : List SocketEvent) :
    EndedBy id name c past e how (g.attendAll name later) := by
  induction later generalizing g with
  | nil => exact h
  | cons e' later ih => exact ih (h.attend e')

/-- **The run.** A connection is open after events, or one of them has ended it. -/
theorem live_or_endedBy (h : Live id options name c [] g) (past : List SocketEvent) :
    Live id options name c past (g.attendAll name past) ∨
      ∃ before e how, EndedBy id name c before e how (g.attendAll name past) := by
  induction past using List.reverseRecOn with
  | nil => exact .inl h
  | append_singleton past e ih =>
    have hstep : g.attendAll name (past ++ [e]) = (g.attendAll name past).attend name e :=
      attendAll_append ..
    rw [hstep]
    rcases ih with hlive | ⟨before, e', how, hended⟩
    · by_cases he : ∃ how, Ends options.pongWait (g.attendAll name past).server c past e how
      · obtain ⟨how, he⟩ := he
        exact .inr ⟨past, e, how, hlive.endedBy_of_ends he⟩
      · exact .inl (hlive.attend (not_exists.mp he))
    · exact .inr ⟨before, e', how, hended.attend e⟩

/-- At most one of the calls asks who joins, and none hands chat over. -/
structure Restrained (calls : List TierCall) : Prop where
  connect : calls.countP TierCall.isConnect ≤ 1
  sendRoom : ∀ call ∈ calls, ∀ request, call.request ≠ .sendRoom request

theorem restrained_joinCalls_append (past : List SocketEvent) {leaves : List TierCall}
    (hleave : ∀ call ∈ leaves, ∃ r, call.request = .disconnect r) :
    Restrained (joinCalls id past ++ leaves) := by
  have hjoin : (joinCalls id past).length ≤ 1 ∧
      ∀ call ∈ joinCalls id past, ∃ r, call.request = .connect r := by
    unfold joinCalls
    cases firstContent? past with
    | none => simp
    | some first => cases hr : requestOf? id first.2 <;> simp [connectCalls, hr]
  constructor
  · have hnone : leaves.countP TierCall.isConnect = 0 := by
      rw [List.countP_eq_zero]
      intro call hcall
      obtain ⟨r, hr⟩ := hleave call hcall
      simp [TierCall.isConnect, hr]
    rw [List.countP_append, hnone]
    exact List.countP_le_length.trans hjoin.1
  · intro call hcall r hr
    rcases List.mem_append.mp hcall with hcall | hcall
    · obtain ⟨r', hr'⟩ := hjoin.2 call hcall
      rw [hr] at hr'
      cases hr'
    · obtain ⟨r', hr'⟩ := hleave call hcall
      rw [hr] at hr'
      cases hr'

/-- **The course of a WebSocket connection.** It is accepted open. Whatever happens, the business
tier is asked at most once who joins, and chat is never handed over; once a text or binary message
has come, no message but a closing one changes the server. While the connection is open, the calls
are those that the first such message leads to, and the events that end it are those of `Ends`. One
that does ends it for good, and in the way that is told. The calls of its teardown are the last:
unless others have meddled with the channel, there is one if a user has joined a room, and else
none. -/
theorem socket_course (g : Gateway) (name id : String) (options : ConnectionOptions)
    (config : BucketConfig) (generator : SequenceId.Generator) (run : List Move)
    (hp : options.pingPeriod ≠ 0) :
    let s := (Server.new id options config generator).after run
    let c := s.openChannel.1
    let g₀ := ({ g with server := s, clients := [], report := .nothing } : Gateway).accept name
      (.socket false false g.now)
    g₀.isOpen name = true ∧ ∀ past,
      let g := g₀.attendAll name past
      Restrained g.report.calls ∧
      ((firstContent? past).isSome = true → ∀ tier m, m ≠ .close →
        (g.attend name (.message tier m)).server = g.server) ∧
      (g.isOpen name = true → g.report.calls = joinCalls id past ∧
        ∀ e, ((g.attend name e).isOpen name = false ↔
            ∃ how, Ends options.pongWait g.server c past e how) ∧
          ∀ how, Ends options.pongWait g.server c past e how → ∀ later,
            EndedBy id name c past e how (g₀.attendAll name (past ++ e :: later))) := by
  intro s c g₀
  have hstart : Live id options name c [] g₀ := live_accept g name id config generator run hp
  refine ⟨hstart.isOpen, fun past => ?_⟩
  intro g
  have hcourse := live_or_endedBy hstart past
  refine ⟨?_, fun hasked tier m hm => ?_, fun hopen => ?_⟩
  · rcases hcourse with hlive | ⟨before, e, how, tier, left?, -, hover, -⟩
    · rw [hlive.calls, ← List.append_nil (joinCalls id past)]
      exact restrained_joinCalls_append past nofun
    · rw [hover.calls]
      refine restrained_joinCalls_append (before ++ [e]) ?_
      cases left? <;> simp [leaveCallsOf]
  · rcases hcourse with hlive | ⟨before, e, how, tier', left?, -, hover, -⟩
    · exact (hlive.attend_ignored tier hm (.inr hasked)).2
    · rw [Gateway.attend, hover.arrive]
  · have hlive : Live id options name c past g := by
      rcases hcourse with hlive | ⟨before, e, how, tier, left?, -, hover, -⟩
      · exact hlive
      · rw [hover.isOpen] at hopen
        cases hopen
    refine ⟨hlive.calls, fun e => ⟨⟨fun hended => ?_, ?_⟩, fun how he later => ?_⟩⟩
    · by_contra hn
      rw [(hlive.attend (not_exists.mp hn)).isOpen] at hended
      cases hended
    · rintro ⟨how, he⟩
      obtain ⟨tier, left?, -, hover, -⟩ := hlive.endedBy_of_ends he
      exact hover.isOpen
    · rw [attendAll_append]
      exact (hlive.endedBy_of_ends he).attendAll later

/-- A user joins a room after a ping, is silent for two seconds, talks without being heard, and
closes the connection. -/
theorem socket_course_closed :
    let options := ConnectionOptions.standard
    let s := Server.new "relay" options ⟨1, 16, 16, 1, 1⟩ ⟨0, by decide, 0, 0⟩
    let g : Gateway := ⟨s, "/", 0, true, true, 0, [], .nothing⟩
    let g₀ := g.accept "ann" (.socket false false 0)
    let tier := BusinessTier.rehearsal none
    let past : List SocketEvent := [.message tier .ping,
      .message tier (.text "\x7b\"roomId\":7,\"authToken\":\"token-5\"\x7d"), .second tier,
      .second tier, .message tier (.text "hello")]
    options.pingPeriod ≠ 0 ∧ (g₀.attendAll "ann" past).isOpen "ann" = true ∧
      Over "ann" .peerClosed
        [⟨.connect ⟨"token-5", ⟨7⟩, "relay"⟩, true⟩, ⟨.disconnect ⟨⟨5⟩, ⟨7⟩⟩, true⟩]
        (g₀.attendAll "ann" (past ++ [.message tier .close])) := by
  intro options s g g₀ tier past
  have hp : options.pingPeriod ≠ 0 := by decide
  obtain ⟨hopen, hcourse⟩ := socket_course g "ann" "relay" options ⟨1, 16, 16, 1, 1⟩
    ⟨0, by decide, 0, 0⟩ [] hp
  have hpast : (g₀.attendAll "ann" past).isOpen "ann" = true := by decide +kernel
  obtain ⟨-, -, hread⟩ := hcourse past
  obtain ⟨tier', left?, htier, hover, hleft⟩ :=
    ((hread hpast).2 (.message tier .close)).2 .peerClosed (.closed tier) []
  cases htier
  have hundisturbed : Undisturbed ⟨0⟩ past := by
    intro m hm
    simp [past] at hm
  have hjoin : joinCalls "relay" (past ++ [.message tier .close]) =
      [⟨.connect ⟨"token-5", ⟨7⟩, "relay"⟩, true⟩] := by decide +kernel
  have hjoined : joined? "relay" (past ++ [.message tier .close]) = some ⟨⟨5⟩, ⟨7⟩⟩ := by
    decide +kernel
  rw [hleft hundisturbed, hjoin, hjoined] at hover
  exact ⟨hp, hpast, hover⟩

end Gateway

end ChatRelay
