import ChatRelay.Gateway.Basic
import ChatRelay.Proofs.Relay.Outcome
import ChatRelay.Push.Router

/-!
# Runs of a gateway

A run is a list of events: clients connect, send and go away, other tiers push, the listeners are
closed, and seconds pass. After each event the gateway settles. Nothing is assumed about the order
of the events or about what the business tier answers.

What an event makes of the connections is told one connection at a time: `Gateway.next` looks at a
single client, and a step maps it over all of them (`clients_step`), a connection that is opened
apart. This needs that no two connections have one name, which every step keeps.
-/

namespace ChatRelay

/-! ## The options of a server stay -/

namespace Server

variable (s : Server) (tier : BusinessTier) (c : ChannelRef)

@[simp] theorem disconnect_options : (s.disconnect c).2.options = s.options := by
  unfold disconnect
  dsimp only
  split
  · split <;> rfl
  · rfl

@[simp] theorem leave_options : (s.leave tier c).2.options = s.options :=
  s.disconnect_options c

theorem register_options {s s' : Server} {user : UserId} {room : RoomId} {c : ChannelRef}
    (h : s.register user room c = .ok s') : s'.options = s.options := by
  unfold register at h
  cases hp : s.hub.put (s.bucketOf user) user room c with
  | error e => rw [hp] at h; cases h
  | ok hub => rw [hp] at h; cases h; rfl

theorem finishJoin_options {s s' : Server} {c : ChannelRef} {room : RoomId}
    {answer : Except TierError UserId} {user : UserId}
    (h : s.finishJoin c room answer = .ok (user, s')) : s'.options = s.options := by
  unfold finishJoin at h
  cases answer with
  | error e => cases h
  | ok u =>
    dsimp only at h
    split at h
    · cases h
    · split at h
      · cases h
      · next hr => cases h; exact register_options hr

@[simp] theorem join_options (token : String) (room : RoomId) :
    (s.join tier c token room).2.2.options = s.options := by
  unfold join
  split
  · rfl
  · dsimp only
    split
    · rfl
    · next h => exact finishJoin_options h

@[simp] theorem pushUser_options (now : Nat) (user : UserId) (msg : Msg) :
    (s.pushUser now user msg).2.options = s.options := by
  unfold pushUser
  split
  · rfl
  · exact stamp_options s now msg

@[simp] theorem pushRoom_options (now : Nat) (room : RoomId) (msg : Msg) :
    (s.pushRoom now room msg).options = s.options :=
  stamp_options s now msg

end Server

namespace Transport

variable (s : Server) (tier : BusinessTier) (c : ChannelRef)

theorem actOn_options (m : TcpMessage) : (actOn s tier c m).server.options = s.options := by
  unfold actOn
  split
  · split
    · rfl
    · have hj := s.join_options tier c m.authToken m.room
      split <;> next h => rw [h] at hj; exact hj
  · rfl
  · rfl

theorem takePayload_options (payload : Frame.Bytes) :
    (takePayload s tier c payload).server.options = s.options := by
  unfold takePayload
  split
  · rfl
  · exact actOn_options s tier c _

theorem takePayloads_options (ps : List (BusinessTier × Frame.Bytes)) :
    (takePayloads s c ps).server.options = s.options := by
  induction ps generalizing s with
  | nil => rfl
  | cons p ps ih =>
    have hp := takePayload_options s p.1 c p.2
    unfold takePayloads
    dsimp only
    split
    · exact hp
    · exact (ih _).trans hp

@[simp] theorem receive_options (d : Frame.Decoder) (buffer chunk : Frame.Bytes) :
    (receive d s tier c buffer chunk).1.server.options = s.options :=
  takePayloads_options s c _

theorem joinBy_options (content : Frame.Bytes) :
    (joinBy s tier c content).server.options = s.options := by
  unfold joinBy
  split
  · rfl
  · next request _ =>
    have hj := s.join_options tier c request.authToken request.room
    split <;> next h => rw [h] at hj; exact hj

@[simp] theorem takeInput_options (hasAsked : Bool) (input : WsInput) :
    (takeInput s tier c hasAsked input).1.server.options = s.options := by
  unfold takeInput
  split
  · rfl
  · split
    · split
      · split
        · rfl
        · exact joinBy_options s tier c _
      · rfl
    · rfl

end Transport

namespace Push

theorem Order.run_options (o : Order) (s : Server) (now : Nat) :
    (o.run s now).options = s.options := by
  cases o with
  | single user msg => exact s.pushUser_options now user msg
  | room r msg | roomCount r msg | roomInfo r msg => exact s.pushRoom_options now r _

@[simp] theorem respond_options (s : Server) (now : Nat) (r : Http.Request) :
    (respond s now r).2.options = s.options := by
  unfold respond respondPush
  split
  · rfl
  · split_ifs
    · rfl
    · split
      · exact Order.run_options _ s now
      · rfl
      · rfl
    all_goals rfl

end Push

/-! ## One client among others -/

namespace Client

/-- A client in the place of those of its name. -/
def update (c : Client) (cs : List Client) : List Client :=
  cs.map fun other => if other.name = c.name then c else other

variable {c d : Client} {cs : List Client}

/-- No two clients have one name. -/
def Distinct (cs : List Client) : Prop :=
  (cs.map name).Nodup

theorem Distinct.eq (hn : Distinct cs) (hc : c ∈ cs) (hd : d ∈ cs) (h : c.name = d.name) :
    c = d :=
  List.inj_on_of_nodup_map hn hc hd h

theorem update_update (h : d.name = c.name) : d.update (c.update cs) = d.update cs := by
  unfold update
  rw [List.map_map]
  refine List.map_congr_left fun x _ => ?_
  by_cases hx : x.name = c.name <;> simp [hx, h]

/-- To put a changed client in its place is to change the clients of its name. -/
theorem update_eq_map (hn : Distinct cs) (hc : c ∈ cs) {f : Client → Client}
    (hf : (f c).name = c.name) :
    (f c).update cs = cs.map fun x => if x.name = c.name then f x else x := by
  refine List.map_congr_left fun x hx => ?_
  rw [hf]
  split_ifs with h
  · rw [hn.eq hx hc h]
  · rfl

theorem update_append_cons {before after : List Client} (hn : Distinct (before ++ c :: after))
    (hd : d.name = c.name) : d.update (before ++ c :: after) = before ++ d :: after := by
  have hfix : ∀ cs : List Client, (∀ x ∈ cs, x.name ≠ c.name) → d.update cs = cs := fun cs h =>
    (List.map_congr_left fun x hx => if_neg (hd ▸ h x hx)).trans (List.map_id cs)
  unfold Distinct at hn
  rw [List.map_append, List.map_cons, List.nodup_middle, List.nodup_cons, ← List.map_append] at hn
  have hother : ∀ x ∈ before ++ after, x.name ≠ c.name := fun x hx h =>
    hn.1 (List.mem_map.2 ⟨x, hx, h⟩)
  have hb := hfix before fun x hx => hother x (List.mem_append_left _ hx)
  have ha := hfix after fun x hx => hother x (List.mem_append_right _ hx)
  unfold update at ha hb ⊢
  rw [List.map_append, List.map_cons, ha, hb, if_pos hd.symm]

theorem update_self (hn : Distinct cs) (hc : c ∈ cs) : c.update cs = cs := by
  rw [← id_eq c, update_eq_map hn hc (f := id) rfl]
  simp

/-- The client is what has become of another: the same connection, which once ended stays so. -/
structure Becomes (c d : Client) : Prop where
  name : d.name = c.name
  channel : d.channel = c.channel
  acceptedAt : d.acceptedAt = c.acceptedAt
  isEnded : c.isEnded = true → d.isEnded = true

theorem Becomes.refl (c : Client) : c.Becomes c := ⟨rfl, rfl, rfl, id⟩

theorem Becomes.ite (h : c.Becomes d) (p : Prop) [Decidable p] :
    c.Becomes (if p then d else c) := by
  split_ifs
  · exact h
  · exact .refl c

end Client

namespace Gateway

variable {g : Gateway} {tier : BusinessTier} {c x : Client}

/-! ## What is left alone

A report changes nothing else, and writing only empties mailboxes. -/

/-- The gateways have the same options, clock and clients, and are open to clients alike. -/
structure SameBut (g g' : Gateway) : Prop where
  options : g'.server.options = g.server.options
  now : g'.now = g.now
  clients : g'.clients = g.clients

namespace SameBut

theorem refl (g : Gateway) : g.SameBut g := ⟨rfl, rfl, rfl⟩

theorem trans {g g' h : Gateway} (hg : g.SameBut g') (hh : g'.SameBut h) : g.SameBut h :=
  ⟨hh.options.trans hg.options, hh.now.trans hg.now, hh.clients.trans hg.clients⟩

/-- A fold of such changes is one. -/
theorem foldl {α : Type} {f : Gateway → α → Gateway} (hf : ∀ g a, SameBut g (f g a)) (as : List α)
    (g : Gateway) : g.SameBut (as.foldl f g) := by
  induction as generalizing g with
  | nil => exact refl g
  | cons a as ih => exact (hf g a).trans (ih _)

end SameBut

theorem sameBut_send (g : Gateway) (c : Client) (o : Transport.Outgoing) :
    g.SameBut (g.send c o) := by
  unfold send
  split
  · exact ⟨rfl, rfl, rfl⟩
  · split <;> exact ⟨rfl, rfl, rfl⟩

theorem sameBut_write (g : Gateway) (c : Client) : g.SameBut (g.write c) := by
  unfold write
  split
  · exact .refl g
  · have hdrain : g.SameBut { g with server := (g.server.drain c.channel).2 } := ⟨rfl, rfl, rfl⟩
    exact hdrain.trans (.foldl (fun g msg => g.sameBut_send c (.message msg)) _ _)

theorem sameBut_settle (g : Gateway) : g.SameBut g.settle := by
  have hwork : g.SameBut { g with server := g.server.runWorkers } := ⟨rfl, rfl, rfl⟩
  exact hwork.trans (.foldl sameBut_write _ _)

/-! ## What the operations make of a client -/

/-- The gateway goes on with the same options and clock, and one client put in its place. -/
structure Updated (g : Gateway) (c : Client) (g' : Gateway) : Prop where
  options : g'.server.options = g.server.options
  now : g'.now = g.now
  clients : g'.clients = c.update g.clients

theorem Updated.of_sameBut (hn : Client.Distinct g.clients) (hc : c ∈ g.clients) {g' : Gateway}
    (h : g.SameBut g') : g.Updated c g' :=
  ⟨h.options, h.now, h.clients.trans (Client.update_self hn hc).symm⟩

theorem updated_finish (g : Gateway) (tier : BusinessTier) (c : Client) (how : String)
    (isGone : Bool) : g.Updated { c with isEnded := true } (g.finish tier c how isGone) := by
  have hoptions := (g.server.closeMailbox c.channel).leave_options tier c.channel
  unfold finish
  dsimp only
  split <;> exact ⟨hoptions, rfl, rfl⟩

/-- A reader went on: the server and the client are put in their place. -/
theorem updated_took {server : Server} (h : server.options = g.server.options) (c : Client)
    (calls : List TierCall) :
    g.Updated { c with isEnded := c.isEnded || false }
      (({ g with server }.setClient c).noteCalls calls) := by
  rw [Bool.or_false]
  exact ⟨h, rfl, rfl⟩

/-- A reader came to the end: what it did before and the teardown are one change. -/
theorem updated_ended {server : Server} (h : server.options = g.server.options) (c : Client)
    (calls : List TierCall) (tier : BusinessTier) (how : String) (isGone : Bool) :
    g.Updated { c with isEnded := c.isEnded || true }
      ((({ g with server }.setClient c).noteCalls calls).finish tier c how isGone) := by
  have hf := (({ g with server }.setClient c).noteCalls calls).updated_finish tier c how isGone
  rw [Bool.or_true]
  exact ⟨hf.options.trans h, hf.now, hf.clients.trans (Client.update_update rfl)⟩

/-- Whether bytes end a raw connection, and what stays in its buffer. -/
def reading (g : Gateway) (tier : BusinessTier) (c : Client) (buffer chunk : Frame.Bytes) :
    Transport.Progress RequestError × Frame.Bytes :=
  Transport.receive (.new g.server.options.maxMessageSize) g.server tier c.channel buffer chunk

/-- A client after bytes arrived from it. -/
def afterBytes (g : Gateway) (tier : BusinessTier) (chunk : Frame.Bytes) (c : Client) : Client :=
  match c.wire with
  | .socket .. => c
  | .raw buffer =>
    let (p, rest) := g.reading tier c buffer chunk
    { c with wire := .raw rest, isEnded := c.isEnded || p.ended.isSome }

/-- A client after an input arrived from it. -/
def afterInput (g : Gateway) (tier : BusinessTier) (input : Transport.WsInput) (c : Client) :
    Client :=
  match c.wire with
  | .raw _ => c
  | .socket hasAsked answersPings _ =>
    let (p, hasAsked) := Transport.takeInput g.server tier c.channel hasAsked input
    { c with
      wire := .socket hasAsked answersPings g.now
      isEnded := c.isEnded || p.ended.isSome }

/-- The input that a message is. -/
def inputOf (g : Gateway) (m : Transport.WsMessage) : Transport.WsInput :=
  if g.server.options.maxMessageSize < contentSize m then .failure else .message m

/-- A client after it went away. -/
def afterHangUp (g : Gateway) (tier : BusinessTier) (c : Client) : Client :=
  match c.wire with
  | .raw _ => { c with isEnded := true }
  | .socket .. => g.afterInput tier .failure c

theorem becomes_afterBytes (g : Gateway) (tier : BusinessTier) (chunk : Frame.Bytes)
    (c : Client) : c.Becomes (g.afterBytes tier chunk c) := by
  unfold afterBytes
  split
  · exact .refl c
  · exact ⟨rfl, rfl, rfl, fun h => by simp [h]⟩

theorem becomes_afterInput (g : Gateway) (tier : BusinessTier) (input : Transport.WsInput)
    (c : Client) : c.Becomes (g.afterInput tier input c) := by
  unfold afterInput
  split
  · exact .refl c
  · exact ⟨rfl, rfl, rfl, fun h => by simp [h]⟩

theorem becomes_afterHangUp (g : Gateway) (tier : BusinessTier) (c : Client) :
    c.Becomes (g.afterHangUp tier c) := by
  unfold afterHangUp
  split
  · exact ⟨rfl, rfl, rfl, fun _ => rfl⟩
  · exact becomes_afterInput ..

theorem updated_receiveBytes (hn : Client.Distinct g.clients) (hc : c ∈ g.clients)
    (chunk : Frame.Bytes) :
    g.Updated (g.afterBytes tier chunk c) (g.receiveBytes tier c chunk) := by
  unfold afterBytes receiveBytes
  cases c.wire with
  | socket => exact .of_sameBut hn hc (.refl g)
  | raw buffer =>
    unfold reading
    dsimp only
    have hoptions := Transport.receive_options g.server tier c.channel
      (.new g.server.options.maxMessageSize) buffer chunk
    -- What is read does not matter here, and to unfold it would.
    generalize Transport.receive _ g.server tier c.channel buffer chunk = r at hoptions ⊢
    cases r.1.ended with
    | none => exact updated_took hoptions { c with wire := .raw r.2 } _
    | some e => exact updated_ended hoptions { c with wire := .raw r.2 } _ ..

theorem updated_receiveInput (hn : Client.Distinct g.clients) (hc : c ∈ g.clients)
    (input : Transport.WsInput) (isGone : Bool) :
    g.Updated (g.afterInput tier input c) (g.receiveInput tier c input isGone) := by
  unfold afterInput receiveInput
  cases c.wire with
  | raw => exact .of_sameBut hn hc (.refl g)
  | socket hasAsked answersPings =>
    dsimp only
    have hoptions := Transport.takeInput_options g.server tier c.channel hasAsked input
    generalize Transport.takeInput g.server tier c.channel hasAsked input = r at hoptions ⊢
    cases r.1.ended with
    | none => exact updated_took hoptions { c with wire := .socket r.2 answersPings g.now } _
    | some e => exact updated_ended hoptions { c with wire := .socket r.2 answersPings g.now } _ ..

theorem updated_receiveMessage (hn : Client.Distinct g.clients) (hc : c ∈ g.clients)
    (m : Transport.WsMessage) :
    g.Updated (g.afterInput tier (g.inputOf m) c) (g.receiveMessage tier c m) := by
  unfold receiveMessage inputOf
  split
  · exact updated_receiveInput hn hc ..
  · exact updated_receiveInput hn hc ..

theorem updated_hangUp (hn : Client.Distinct g.clients) (hc : c ∈ g.clients) :
    g.Updated (g.afterHangUp tier c) (g.hangUp tier c) := by
  unfold hangUp
  cases hw : c.wire with
  | raw buffer =>
    have he : g.afterHangUp tier c = { c with isEnded := true } := by simp [afterHangUp, hw]
    rw [he]
    exact g.updated_finish tier c _ _
  | socket =>
    have he : g.afterHangUp tier c = g.afterInput tier .failure c := by simp [afterHangUp, hw]
    rw [he]
    exact updated_receiveInput hn hc ..

/-! ## What a second makes of a client -/

/-- A client after the second that ends at `now`: it answered a ping, or it was silent for too long,
or nothing happened. -/
def afterSecond (o : ConnectionOptions) (now : Nat) (c : Client) : Client :=
  if c.isEnded then c
  else
    match c.wire with
    | .raw _ => c
    | .socket hasAsked answersPings heardAt =>
      if Transport.isHeartbeatDue o.pingPeriod c.acceptedAt now ∧ answersPings then
        { c with wire := .socket hasAsked answersPings now }
      else if heardAt + o.pongWait ≤ now then
        { c with wire := .socket hasAsked answersPings now, isEnded := true }
      else c

theorem becomes_afterSecond (o : ConnectionOptions) (now : Nat) (c : Client) :
    c.Becomes (afterSecond o now c) := by
  unfold afterSecond
  split
  · exact .refl c
  · split
    · exact .refl c
    · split_ifs
      · exact ⟨rfl, rfl, rfl, id⟩
      · exact ⟨rfl, rfl, rfl, fun _ => rfl⟩
      · exact .refl c

theorem afterInput_pong (tier : BusinessTier) {hasAsked answersPings : Bool} {heardAt : Nat}
    (hw : c.wire = .socket hasAsked answersPings heardAt) :
    g.afterInput tier (.message .pong) c =
      { c with wire := .socket hasAsked answersPings g.now } := by
  simp [afterInput, hw, Transport.takeInput, Transport.WsInput.end?, Transport.WsMessage.content?]

theorem afterInput_silence (tier : BusinessTier) {hasAsked answersPings : Bool} {heardAt : Nat}
    (hw : c.wire = .socket hasAsked answersPings heardAt) :
    g.afterInput tier .silence c =
      { c with wire := .socket hasAsked answersPings g.now, isEnded := true } := by
  simp [afterInput, hw, Transport.takeInput, Transport.WsInput.end?]

theorem SameBut.updated {g' h : Gateway} (hg : g.SameBut g') (hh : g'.Updated c h) :
    g.Updated c h :=
  ⟨hh.options.trans hg.options, hh.now.trans hg.now, hg.clients ▸ hh.clients⟩

theorem updated_tickClient (hn : Client.Distinct g.clients) (hc : c ∈ g.clients)
    (tier : BusinessTier) :
    g.Updated (afterSecond g.server.options g.now c) (tickClient tier g c) := by
  unfold tickClient afterSecond
  split
  · exact .of_sameBut hn hc (.refl g)
  · dsimp only
    generalize hg' : (if Transport.isHeartbeatDue g.server.options.pingPeriod c.acceptedAt
        g.now then g.send c .heartbeat else g) = g'
    have hsent : g.SameBut g' := by
      rw [← hg']
      split
      · exact g.sameBut_send c .heartbeat
      · exact .refl g
    have hn' : Client.Distinct g'.clients := hsent.clients ▸ hn
    have hc' : c ∈ g'.clients := hsent.clients ▸ hc
    rw [hsent.options, hsent.now]
    cases hw : c.wire with
    | raw => exact hsent.updated (.of_sameBut hn' hc' (.refl g'))
    | socket hasAsked answersPings heardAt =>
      dsimp only
      split_ifs
      · rw [← hsent.now, ← afterInput_pong tier hw]
        exact hsent.updated (updated_receiveInput hn' hc' ..)
      · rw [← hsent.now, ← afterInput_silence tier hw]
        exact hsent.updated (updated_receiveInput hn' hc' ..)
      · exact hsent.updated (.of_sameBut hn' hc' (.refl g'))

theorem clients_foldl_tickClient (tier : BusinessTier) {before cs : List Client}
    (hn : Client.Distinct (before ++ cs)) (hg : g.clients = before ++ cs) :
    let g' := cs.foldl (tickClient tier) g
    g'.server.options = g.server.options ∧ g'.now = g.now ∧
      g'.clients = before ++ cs.map (afterSecond g.server.options g.now) := by
  induction cs generalizing g before with
  | nil => exact ⟨rfl, rfl, hg⟩
  | cons c cs ih =>
    have hu := updated_tickClient (hg ▸ hn)
      (hg ▸ List.mem_append_right before (List.mem_cons_self ..)) tier
    have hclients : (tickClient tier g c).clients =
        (before ++ [afterSecond g.server.options g.now c]) ++ cs := by
      rw [hu.clients, hg, Client.update_append_cons hn (becomes_afterSecond ..).name,
        List.append_assoc]
      rfl
    have hn' : Client.Distinct ((before ++ [afterSecond g.server.options g.now c]) ++ cs) := by
      have hname := (becomes_afterSecond g.server.options g.now c).name
      unfold Client.Distinct at hn ⊢
      simpa [hname] using hn
    obtain ⟨hoptions, hnow, h⟩ := ih hn' hclients
    rw [hu.options, hu.now] at h
    refine ⟨hoptions.trans hu.options, hnow.trans hu.now, ?_⟩
    rw [List.foldl_cons, h, List.append_assoc]
    rfl

theorem clients_tick (hn : Client.Distinct g.clients) (tier : BusinessTier) :
    (g.tick tier).server.options = g.server.options ∧ (g.tick tier).now = g.now + 1 ∧
      (g.tick tier).clients = g.clients.map (afterSecond g.server.options (g.now + 1)) := by
  have hall := List.nil_append g.clients
  obtain ⟨hoptions, hnow, hclients⟩ :=
    clients_foldl_tickClient (g := { g with now := g.now + 1 }) tier (hall ▸ hn) hall.symm
  have hs := (g.clients.foldl (tickClient tier) { g with now := g.now + 1 }).sameBut_settle
  exact ⟨hs.options.trans hoptions, hs.now.trans hnow, hs.clients.trans hclients⟩

/-! ## Events -/

/-- What happens to a gateway. Clients are told apart by their names. -/
inductive Event where
  | openRaw (name : String) (listener : Nat)
  | openSocket (name target : String) (answersPings : Bool)
  | bytes (tier : BusinessTier) (name : String) (chunk : Frame.Bytes)
  | message (tier : BusinessTier) (name : String) (m : Transport.WsMessage)
  /-- A client goes away without a word. -/
  | hangUp (tier : BusinessTier) (name : String)
  /-- Another tier pushes. -/
  | push (now : Nat) (request : Http.Request)
  /-- A second passes. -/
  | second (tier : BusinessTier)
  | shutdown

def Event.isSecond : Event → Bool
  | second _ => true
  | _ => false

/-- The seconds that pass during events. -/
def seconds (events : List Event) : Nat :=
  events.countP Event.isSecond

/-- An event at the client of a name, if there is one. -/
def reach (g : Gateway) (name : String) (act : Client → Gateway) : Gateway :=
  (g.client? name).elim g act

/-- An event, before the gateway has settled. -/
def handle (g : Gateway) : Event → Gateway
  | .openRaw name listener => (g.openRaw name listener).2
  | .openSocket name target answersPings => (g.openSocket name target answersPings).2
  | .bytes tier name chunk => g.reach name fun c => g.receiveBytes tier c chunk
  | .message tier name m => g.reach name fun c => g.receiveMessage tier c m
  | .hangUp tier name => g.reach name fun c => g.hangUp tier c
  | .push now request => { g with server := (Push.respond g.server now request).2 }
  | .second tier => g.tick tier
  | .shutdown => g.shutdown.2

/-- An event. -/
def step (g : Gateway) (e : Event) : Gateway :=
  (g.handle e).settle

/-- The gateway after events. -/
def after (g : Gateway) (events : List Event) : Gateway :=
  events.foldl step g

@[simp] theorem after_nil (g : Gateway) : g.after [] = g := rfl

theorem after_concat (g : Gateway) (events : List Event) (e : Event) :
    g.after (events ++ [e]) = (g.after events).step e :=
  List.foldl_append

/-- What an event makes of a client. -/
def next (g : Gateway) (e : Event) (c : Client) : Client :=
  match e with
  | .bytes tier name chunk => if c.name = name then g.afterBytes tier chunk c else c
  | .message tier name m => if c.name = name then g.afterInput tier (g.inputOf m) c else c
  | .hangUp tier name => if c.name = name then g.afterHangUp tier c else c
  | .second _ => afterSecond g.server.options (g.now + 1) c
  | .openRaw .. | .openSocket .. | .push .. | .shutdown => c

theorem becomes_next (g : Gateway) (e : Event) (c : Client) : c.Becomes (g.next e c) := by
  cases e with
  | openRaw | openSocket | push | shutdown => exact .refl c
  | second => exact becomes_afterSecond ..
  | bytes => exact .ite (becomes_afterBytes ..) _
  | message => exact .ite (becomes_afterInput ..) _
  | hangUp => exact .ite (becomes_afterHangUp ..) _

/-- A connection that was just accepted. -/
structure Fresh (g : Gateway) (c : Client) : Prop where
  isEnded : c.isEnded = false
  acceptedAt : c.acceptedAt = g.now
  wire : c.wire = .raw [] ∨ ∃ answersPings, c.wire = .socket false answersPings g.now

/-! ## What a step makes of the clients -/

/-- What a step leaves: the options, the clock up to the second that passes, distinct names, and
each connection either fresh or changed by the event alone. -/
structure Stepped (g : Gateway) (e : Event) (g' : Gateway) : Prop where
  options : g'.server.options = g.server.options
  now : g'.now = g.now + seconds [e]
  distinct : Client.Distinct g'.clients
  clients : ∀ x ∈ g'.clients, (seconds [e] = 0 ∧ g.Fresh x) ∨ ∃ c ∈ g.clients, x = g.next e c

theorem Stepped.of_map {e : Event} {g' : Gateway} (hn : Client.Distinct g.clients)
    (hoptions : g'.server.options = g.server.options) (hnow : g'.now = g.now + seconds [e])
    (hclients : g'.clients = g.clients.map (g.next e)) : g.Stepped e g' where
  options := hoptions
  now := hnow
  distinct := by
    unfold Client.Distinct at hn ⊢
    rw [hclients, List.map_map]
    exact (List.map_congr_left fun c _ => (g.becomes_next e c).name) ▸ hn
  clients x hx := by
    rw [hclients, List.mem_map] at hx
    obtain ⟨c, hc, rfl⟩ := hx
    exact .inr ⟨c, hc, rfl⟩

/-- An event that leaves the clients alone. -/
theorem Stepped.of_sameBut {e : Event} {g' : Gateway} (hn : Client.Distinct g.clients)
    (hs : g.SameBut g') (he : seconds [e] = 0) (hnext : ∀ c, g.next e c = c) :
    g.Stepped e g' :=
  .of_map hn hs.options (by rw [hs.now, he]; rfl)
    (hs.clients.trans ((List.map_congr_left fun c _ => hnext c).trans (List.map_id _)).symm)

/-- An event at one client. -/
theorem Stepped.of_reach {e : Event} {name : String} {act : Client → Gateway} {f : Client → Client}
    (hn : Client.Distinct g.clients) (he : seconds [e] = 0)
    (hnext : ∀ c, g.next e c = if c.name = name then f c else c)
    (hact : ∀ c ∈ g.clients, g.Updated (f c) (act c)) : g.Stepped e (g.reach name act) := by
  unfold reach client?
  cases hf : g.clients.find? fun c => c.name = name with
  | none =>
    have hnone : ∀ c ∈ g.clients, g.next e c = c := fun c hc => by
      rw [hnext, if_neg (of_decide_eq_false (by simpa using List.find?_eq_none.1 hf c hc))]
    exact .of_map hn rfl (by rw [he]; rfl)
      ((List.map_congr_left hnone).trans (List.map_id _)).symm
  | some c =>
    have hc := List.mem_of_find?_eq_some hf
    have hcn : c.name = name := by simpa using List.find?_some hf
    have hu := hact c hc
    have hfc : (f c).name = c.name := by
      have h := (g.becomes_next e c).name
      rwa [hnext, if_pos hcn] at h
    refine .of_map hn hu.options (by rw [he]; exact hu.now) ?_
    refine hu.clients.trans ((Client.update_eq_map hn hc hfc).trans ?_)
    exact List.map_congr_left fun x _ => by rw [hnext, hcn]

/-- Where writers can start, a connection stays when it is accepted. -/
theorem accept_eq (hp : Transport.isPeriod g.server.options.pingPeriod) (name : String)
    (wire : Wire) :
    g.accept name wire =
      { g with
        server := g.server.openChannel.2
        clients := (g.clients.filter fun c => c.name ≠ name) ++
          [⟨name, g.server.openChannel.1, g.now, wire, false⟩] } :=
  if_pos hp

/-- An accepted connection takes the place of one with its name. -/
theorem Stepped.of_accept {e : Event} (hn : Client.Distinct g.clients)
    (hp : Transport.isPeriod g.server.options.pingPeriod) (he : seconds [e] = 0)
    (hnext : ∀ c, g.next e c = c) (name : String) {wire : Wire}
    (hw : wire = .raw [] ∨ ∃ answersPings, wire = .socket false answersPings g.now) :
    g.Stepped e (g.accept name wire) := by
  rw [accept_eq hp]
  refine ⟨rfl, by rw [he]; rfl, ?_, fun x hx => ?_⟩
  · unfold Client.Distinct at hn ⊢
    rw [List.map_append, List.nodup_append]
    refine ⟨(List.filter_sublist.map Client.name).nodup hn, List.nodup_singleton _, ?_⟩
    intro a ha b hb
    obtain ⟨c, hc, rfl⟩ := List.mem_map.1 ha
    rw [List.mem_singleton.1 hb]
    exact of_decide_eq_true (List.mem_filter.1 hc).2
  · rcases List.mem_append.1 hx with hx | hx
    · exact .inr ⟨x, (List.mem_filter.1 hx).1, (hnext x).symm⟩
    · rw [List.mem_singleton.1 hx]
      exact .inl ⟨he, rfl, rfl, hw⟩

theorem Stepped.settle {e : Event} {g' : Gateway} (h : g.Stepped e g') : g.Stepped e g'.settle := by
  have hs := g'.sameBut_settle
  exact ⟨hs.options.trans h.options, hs.now.trans h.now, hs.clients ▸ h.distinct,
    hs.clients ▸ h.clients⟩

/-- **One step.** Where writers can start, an event opens connections or changes each client as
`next` says. -/
theorem stepped_step (hn : Client.Distinct g.clients)
    (hp : Transport.isPeriod g.server.options.pingPeriod) (e : Event) : g.Stepped e (g.step e) := by
  refine Stepped.settle ?_
  cases e with
  | openRaw name listener =>
    change g.Stepped _ (g.openRaw name listener).2
    unfold openRaw
    split
    · exact .of_accept hn hp rfl (fun _ => rfl) name (.inl rfl)
    · exact .of_sameBut hn (.refl g) rfl fun _ => rfl
  | openSocket name target answersPings =>
    change g.Stepped _ (g.openSocket name target answersPings).2
    unfold openSocket
    split_ifs
    · exact .of_accept hn hp rfl (fun _ => rfl) name (.inr ⟨answersPings, rfl⟩)
    · exact .of_sameBut hn (.refl g) rfl fun _ => rfl
    · exact .of_sameBut hn (.refl g) rfl fun _ => rfl
  | bytes tier name chunk =>
    exact .of_reach hn rfl (fun _ => rfl) fun c hc => updated_receiveBytes hn hc chunk
  | message tier name m =>
    exact .of_reach hn rfl (fun _ => rfl) fun c hc => updated_receiveMessage hn hc m
  | hangUp tier name =>
    exact .of_reach hn rfl (fun _ => rfl) fun c hc => updated_hangUp hn hc
  | push now request =>
    exact .of_sameBut hn ⟨Push.respond_options .., rfl, rfl⟩ rfl fun _ => rfl
  | second tier =>
    obtain ⟨hoptions, hnow, hclients⟩ := clients_tick hn tier
    exact .of_map hn hoptions hnow hclients
  | shutdown => exact .of_sameBut hn ⟨rfl, rfl, rfl⟩ rfl fun _ => rfl

end Gateway

end ChatRelay
