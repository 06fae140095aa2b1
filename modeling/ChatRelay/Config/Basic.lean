import ChatRelay.Config.Variables
import ChatRelay.Relay.Server

/-!
# The configuration

The settings of one relay instance. What the host decides is left open here: the number of
processors, which some counts default to, and the identifier that an unnamed instance draws.
-/

namespace ChatRelay.Config

/-- The text with its ASCII letters in lower case. None of the words below is the lower case of a
text with other letters. -/
def lower (text : String) : String :=
  String.ofList (text.toList.map Char.toLower)

/-- Where the relay runs. -/
inductive Environment where
  | development
  | staging
  | production
  deriving DecidableEq, Repr

namespace Environment

def name : Environment → String
  | development => "Development"
  | staging => "Staging"
  | production => "Production"

/-- Read an environment; letter case does not count. -/
def ofText? (text : String) : Option Environment :=
  let t := lower text
  if t = "production" then some production
  else if t = "staging" then some staging
  else if t = "development" then some development
  else none

end Environment

/-- The form of log lines. -/
inductive LogFormat where
  | pretty
  | json
  deriving DecidableEq, Repr

namespace LogFormat

def name : LogFormat → String
  | pretty => "Pretty"
  | json => "Json"

/-- Read a log format; letter case does not count. -/
def ofText? (text : String) : Option LogFormat :=
  let t := lower text
  if t = "pretty" ∨ t = "text" then some pretty else if t = "json" then some json else none

end LogFormat

/-- The listeners for raw connections. -/
structure TcpConfig where
  ports : List Nat
  /-- Accepting tasks for each listener; none stands for the number of processors. -/
  acceptors : Option Nat
  keepalive : Bool
  receiveBuffer : Nat
  sendBuffer : Nat
  deriving DecidableEq, Repr

/-- The service registry. Its URL is kept as it was given. -/
structure RegistryConfig where
  redisUrl : String
  maxConnections : Nat
  basePath : String
  ttlSeconds : Nat
  deriving DecidableEq, Repr

namespace RegistryConfig

/-- The time between two refreshes in nanoseconds: a third of the time to live, and at least one
second. -/
def refreshNanos (r : RegistryConfig) : Nat :=
  max (r.ttlSeconds * 1000000000 / 3) 1000000000

def refreshMillis (r : RegistryConfig) : Nat :=
  r.refreshNanos / 1000000

end RegistryConfig

/-- The settings of one relay instance. -/
structure AppConfig where
  name : String
  environment : Environment
  logFormat : LogFormat
  host : String
  wsPort : Nat
  wsPath : String
  rpcPort : Nat
  /-- None stands for an identifier that is drawn. -/
  serverId : Option String
  /-- None if raw connections are not served. -/
  tcp : Option TcpConfig
  /-- None stands for the number of processors. -/
  bucketCount : Option Nat
  channelSize : Nat
  roomSize : Nat
  routineAmount : Nat
  routineSize : Nat
  connection : ConnectionOptions
  logicUrl : String
  logicTimeoutMillis : Nat
  /-- None if the instance is not announced. -/
  registry : Option RegistryConfig
  workerId : Nat
  deriving DecidableEq, Repr

namespace AppConfig

def address (c : AppConfig) (port : Nat) : String :=
  c.host ++ ":" ++ toString port

def wsAddress (c : AppConfig) : String :=
  c.address c.wsPort

def rpcAddress (c : AppConfig) : String :=
  c.address c.rpcPort

def tcpAddresses (c : AppConfig) : List String :=
  (c.tcp.elim [] TcpConfig.ports).map c.address

/-- The layout of the buckets on a host. -/
def buckets (c : AppConfig) (processors : Nat) : BucketConfig :=
  ⟨c.bucketCount.getD processors, c.channelSize, c.roomSize, c.routineAmount, c.routineSize⟩

end AppConfig

end ChatRelay.Config
