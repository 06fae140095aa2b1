import ChatRelay.Config.Basic
import ChatRelay.Registry.Entry
import ChatRelay.Service.Error

/-!
# Putting a server together

A server needs an identifier and a business tier; everything else has a default. A configuration
describes all of it but what the host decides.
-/

namespace ChatRelay

/-- What the host decides for an instance. -/
structure Host where
  processors : Nat
  /-- The identifier of an instance that is not named. -/
  drawnId : String
  deriving DecidableEq, Repr

/-- The parts of a server. -/
structure Blueprint where
  serverId : Option String
  hasBusinessTier : Bool
  buckets : BucketConfig
  options : ConnectionOptions
  generator : SequenceId.Generator
  deriving DecidableEq, Repr

/-- Put the server together. -/
def Blueprint.build (b : Blueprint) : Except StartError Server :=
  match b.serverId with
  | none => .error (.missing .serverId)
  | some id =>
    if b.hasBusinessTier then .ok (.new id b.options b.buckets b.generator)
    else .error (.missing .businessTier)

/-- The issuer of a worker's ids; a worker beyond the range of workers is taken as the last. -/
def SequenceId.Generator.ofWorker (worker : Nat) : SequenceId.Generator :=
  ⟨min worker SequenceId.maxWorker, Nat.min_le_right _ _, 0, 0⟩

namespace Config.AppConfig

/-- The identifier of the instance. -/
def instanceId (c : AppConfig) (host : Host) : String :=
  c.serverId.getD host.drawnId

/-- The parts that a configuration describes. -/
def blueprint (c : AppConfig) (host : Host) : Blueprint where
  serverId := some (c.instanceId host)
  hasBusinessTier := true
  buckets := c.buckets host.processors
  options := c.connection
  generator := .ofWorker c.workerId

/-- The entries that announce the instance: one for each transport, all with the address at which
pushes are taken. -/
def registryEntries (c : AppConfig) (host : Host) (pushAddress : String) : List ServiceEntry :=
  ⟨c.instanceId host, ServiceEntry.wsType, pushAddress⟩ ::
    (if c.tcp.isSome then [⟨c.instanceId host, ServiceEntry.tcpType, pushAddress⟩] else [])

/-- The addresses that are listened at, in the order in which they are opened. -/
def listenAddresses (c : AppConfig) : List String :=
  c.wsAddress :: c.rpcAddress :: c.tcpAddresses

end Config.AppConfig

/-- Open listeners in turn; `refusal?` says why an address cannot be listened at. -/
def openListeners (refusal? : String → Option String) : List String → Except StartError Unit
  | [] => .ok ()
  | address :: rest =>
    match refusal? address with
    | some reason => .error (.bind address reason)
    | none => openListeners refusal? rest

end ChatRelay
