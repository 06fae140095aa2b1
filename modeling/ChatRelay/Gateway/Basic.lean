import ChatRelay.Config.Basic
import ChatRelay.Http.Route
import ChatRelay.Transport.Outgoing
import ChatRelay.Transport.WebSocket

/-!
# The gateway

The gateway is a server with its listeners and the connections of its clients. After each event it
settles: the broadcast workers run, and every connection's writer empties its mailbox. What
happens on the way is reported: the calls to the business tier, how connections ended, and what
each client received. The clock moves by whole seconds.

Whether a client can reach the listeners at all is given from outside.
-/

namespace ChatRelay

/-- What is kept of a connection besides its channel. -/
inductive Wire where
  /-- A raw connection, with the bytes that are no whole frame yet. -/
  | raw (buffer : Frame.Bytes)
  /-- A WebSocket connection: whether the client has asked to join, whether it answers pings, and
  when it was heard last. -/
  | socket (hasAsked answersPings : Bool) (heardAt : Nat)
  deriving DecidableEq, Repr

/-- A connected client. -/
structure Client where
  name : String
  channel : ChannelRef
  acceptedAt : Nat
  wire : Wire
  isEnded : Bool
  deriving DecidableEq, Repr

/-- Something that a client received. -/
inductive Received where
  | bytes (bytes : Frame.Bytes)
  | text (text : String)
  | ping (payload : String)
  | closed
  deriving DecidableEq, Repr

/-- What happened in the course of an event. -/
structure Report where
  calls : List TierCall
  /-- The numbers of the connections that ended, and how. -/
  ends : List (Nat × String)
  received : List (String × Received)
  deriving DecidableEq, Repr

def Report.nothing : Report := ⟨[], [], []⟩

/-- A server with its listeners and clients. -/
structure Gateway where
  server : Server
  wsPath : String
  tcpListeners : Nat
  isReachable : Bool
  isListening : Bool
  now : Nat
  clients : List Client
  report : Report

namespace Gateway

/-- The gateway of a configuration, without clients. -/
def new (config : Config.AppConfig) (server : Server) (isReachable : Bool) : Gateway :=
  { server, isReachable, wsPath := config.wsPath, tcpListeners := config.tcpAddresses.length
    isListening := true, now := 0, clients := [], report := .nothing }

def client? (g : Gateway) (name : String) : Option Client :=
  g.clients.find? fun c => c.name = name

def setClient (g : Gateway) (c : Client) : Gateway :=
  { g with clients := g.clients.map fun other => if other.name = c.name then c else other }

def connId (g : Gateway) (c : Client) : Nat :=
  (g.server.hub.roster.connId? c.channel).getD 0

/-! ## Reporting -/

def noteCalls (g : Gateway) (calls : List TierCall) : Gateway :=
  { g with report := { g.report with calls := g.report.calls ++ calls } }

def noteEnd (g : Gateway) (c : Client) (how : String) : Gateway :=
  { g with report := { g.report with ends := g.report.ends ++ [(g.connId c, how)] } }

def noteReceived (g : Gateway) (c : Client) (r : Received) : Gateway :=
  { g with report := { g.report with received := g.report.received ++ [(c.name, r)] } }

/-- The report since the last one was taken. -/
def takeReport (g : Gateway) : Report × Gateway :=
  (g.report, { g with report := .nothing })

/-! ## Connections -/

/-- Tear a connection down. The client is told unless it is gone. -/
def finish (g : Gateway) (tier : BusinessTier) (c : Client) (how : String) (isGone : Bool) :
    Gateway :=
  let (calls, server) := (g.server.closeMailbox c.channel).leave tier c.channel
  let g := ({ g with server }.setClient { c with isEnded := true }).noteCalls calls
  let g := g.noteEnd c how
  if isGone then g else g.noteReceived c .closed

/-- End a connection that was just accepted. It has not joined, so that only the client is told. -/
def turnAway (g : Gateway) (c : Client) : Gateway :=
  let (_, server) := (g.server.closeMailbox c.channel).disconnect c.channel
  ({ g with server }.setClient { c with isEnded := true }).noteReceived c .closed

/-- Accept a connection. It ends at once if its writer cannot start. -/
def accept (g : Gateway) (name : String) (wire : Wire) : Gateway :=
  let (channel, server) := g.server.openChannel
  let others := g.clients.filter fun c => c.name ≠ name
  let c : Client := ⟨name, channel, g.now, wire, false⟩
  let g := { g with server, clients := others ++ [c] }
  if Transport.isPeriod g.server.options.pingPeriod then g else g.turnAway c

/-- Open a raw connection to a listener, if there is one. -/
def openRaw (g : Gateway) (name : String) (listener : Nat) : Bool × Gateway :=
  if g.isReachable ∧ g.isListening ∧ listener < g.tcpListeners then
    (true, g.accept name (.raw []))
  else (false, g)

/-- Open a WebSocket connection; the answer is the status, which is 0 without a listener. -/
def openSocket (g : Gateway) (name target : String) (answersPings : Bool) : Nat × Gateway :=
  if g.isReachable ∧ g.isListening then
    if Http.isServed g.wsPath target then
      (101, g.accept name (.socket false answersPings g.now))
    else (404, g)
  else (0, g)

/-- Bytes arrive on a raw connection. -/
def receiveBytes (g : Gateway) (tier : BusinessTier) (c : Client) (chunk : Frame.Bytes) : Gateway :=
  match c.wire with
  | .socket .. => g
  | .raw buffer =>
    let decoder := Frame.Decoder.new g.server.options.maxMessageSize
    let (p, buffer) := Transport.receive decoder g.server tier c.channel buffer chunk
    let c := { c with wire := .raw buffer }
    let g := ({ g with server := p.server }.setClient c).noteCalls p.calls
    match p.ended with
    | some e => g.finish tier c (Transport.RawEnd.rejected e).describe false
    | none => g

/-- An input arrives on a WebSocket connection. -/
def receiveInput (g : Gateway) (tier : BusinessTier) (c : Client) (input : Transport.WsInput)
    (isGone : Bool) : Gateway :=
  match c.wire with
  | .raw _ => g
  | .socket hasAsked answersPings _ =>
    let (p, hasAsked) := Transport.takeInput g.server tier c.channel hasAsked input
    let c := { c with wire := .socket hasAsked answersPings g.now }
    let g := ({ g with server := p.server }.setClient c).noteCalls p.calls
    match p.ended with
    | some e => g.finish tier c e.describe isGone
    | none => g

/-- The bytes of a message's content. -/
def contentSize (m : Transport.WsMessage) : Nat :=
  (m.content?.getD []).length

/-- A message arrives on a WebSocket connection; one that is too long breaks the transport. -/
def receiveMessage (g : Gateway) (tier : BusinessTier) (c : Client) (m : Transport.WsMessage) :
    Gateway :=
  if g.server.options.maxMessageSize < contentSize m then g.receiveInput tier c .failure false
  else g.receiveInput tier c (.message m) false

/-- The client goes away without a word. -/
def hangUp (g : Gateway) (tier : BusinessTier) (c : Client) : Gateway :=
  match c.wire with
  | .raw buffer =>
    let decoder := Frame.Decoder.new g.server.options.maxMessageSize
    g.finish tier c (Transport.endOfStream decoder buffer).describe true
  | .socket .. => g.receiveInput tier c .failure true

/-! ## Writing -/

/-- Send something to a client. -/
def send (g : Gateway) (c : Client) (o : Transport.Outgoing) : Gateway :=
  match c.wire with
  | .socket .. =>
    g.noteReceived c
      (match o with
      | .message msg => .text msg.body
      | .heartbeat => .ping Transport.heartbeatText)
  | .raw _ =>
    match o.frame with
    | .ok frame => g.noteReceived c (.bytes frame)
    | .error (.tooLarge length max) =>
      g.noteEnd c ("tcp:too_large:" ++ toString length ++ ":" ++ toString max)
    | .error _ => g

/-- Let a connection's writer empty its mailbox. -/
def write (g : Gateway) (c : Client) : Gateway :=
  if c.isEnded then g
  else
    let (taken, server) := g.server.drain c.channel
    taken.foldl (fun g msg => g.send c (.message msg)) { g with server }

/-- Let the workers run and the writers write. -/
def settle (g : Gateway) : Gateway :=
  let g := { g with server := g.server.runWorkers }
  g.clients.foldl write g

/-! ## Time -/

/-- What the current second brings for a connection: a heartbeat, and the end of a client that was
silent for too long. -/
def tickClient (tier : BusinessTier) (g : Gateway) (c : Client) : Gateway :=
  if c.isEnded then g
  else
    let due := Transport.isHeartbeatDue g.server.options.pingPeriod c.acceptedAt g.now
    let g := if due then g.send c .heartbeat else g
    match c.wire with
    | .raw _ => g
    | .socket _ answersPings heardAt =>
      if due ∧ answersPings then g.receiveInput tier c (.message .pong) false
      else if heardAt + g.server.options.pongWait ≤ g.now then
        g.receiveInput tier c .silence false
      else g

/-- Let a second pass. -/
def tick (tier : BusinessTier) (g : Gateway) : Gateway :=
  let g := { g with now := g.now + 1 }
  (g.clients.foldl (tickClient tier) g).settle

/-- Let seconds pass. -/
def advance (tier : BusinessTier) : Nat → Gateway → Gateway
  | 0, g => g
  | seconds + 1, g => advance tier seconds (g.tick tier)

/-- Close the listeners; connections stay. Only the first call has an effect. -/
def shutdown (g : Gateway) : Bool × Gateway :=
  (g.isListening, { g with isListening := false })

end Gateway

end ChatRelay
