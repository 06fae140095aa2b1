import ChatRelay.Http.Route
import ChatRelay.Registry.Keepalive
import ChatRelay.Registry.Redis.Announcer
import ChatRelay.Registry.Redis.Settings
import ChatRelay.Service.Blueprint

/-!
# Running an instance

An instance puts its server together, opens its listeners, starts to announce itself if it has a
registry, and serves until it is told to stop; then it first withdraws its entries. A path for
WebSocket clients that cannot be a route ends the instance as soon as it serves. The clock counts
seconds from the start.
-/

namespace ChatRelay

/-- An instance that runs. -/
structure Instance where
  server : Server
  wsPath : String
  tcpListeners : Nat
  /-- What announces the instance, and what keeps it announced. -/
  registration : Option (Redis.Announcer × Keeper)

namespace Instance

/-- The keeper and the announcer of a registry, whose settings are checked first. -/
def registration? (c : Config.AppConfig) (host : Host) (pushAddress : String) :
    Except AppError (Option (Redis.Announcer × Keeper)) :=
  match c.registry with
  | none => .ok none
  | some r =>
    match (Redis.Settings.ofConfig r).check with
    | .error failure => .error (.cache failure.message)
    | .ok _ =>
      .ok (some (⟨r.basePath, r.ttlSeconds * 1000⟩,
        .new (c.registryEntries host pushAddress) r.refreshNanos))

/-- Start an instance; `refusal?` says why an address cannot be listened at. -/
def start (c : Config.AppConfig) (host : Host) (refusal? : String → Option String) :
    Except AppError Instance :=
  match (c.blueprint host).build with
  | .error e => .error (.ofStartError e)
  | .ok server =>
    match openListeners refusal? c.listenAddresses with
    | .error e => .error (.ofStartError e)
    | .ok () =>
      (registration? c host c.rpcAddress).map fun registration =>
        ⟨server, c.wsPath, c.tcpAddresses.length, registration⟩

/-- What is logged when the instance serves. -/
def banner (i : Instance) : String :=
  "listening tcp=" ++ toString i.tcpListeners ++ " path=" ++ i.wsPath

/-- How an instance that was not stopped would end by itself. -/
def failure? (i : Instance) : Option AppError :=
  if (Http.route? i.wsPath).isSome then none else some (.internal "invalid WebSocket path")

/-- Nanoseconds in a second. -/
def nanos : Nat := 1000000000

variable {σ : Type} (b : Redis.Backend σ)

/-- Carry out actions in turn. -/
def actAll (a : Redis.Announcer) (actions : List RegistryAction) (s : σ) : σ :=
  actions.foldl (fun s action => (a.act b action s).2) s

/-- Let the keeper run after so many seconds; the backend answers at once. -/
def run (i : Instance) (seconds : Nat) (s : σ) : Instance × σ :=
  match i.registration with
  | none => (i, s)
  | some (a, k) =>
    let (actions, k) := k.runInstantly (seconds * nanos)
    ({ i with registration := some (a, k) }, actAll b a actions s)

/-- Let the keeper run once for each of so many seconds. -/
def runFor (i : Instance) (s : σ) : Nat → Instance × σ
  | 0 => (i, s)
  | seconds + 1 =>
    let (i, s) := runFor i s seconds
    i.run b (seconds + 1) s

/-- Withdraw the entries after so many seconds. -/
def stop (i : Instance) (seconds : Nat) (s : σ) : σ :=
  match i.registration with
  | none => s
  | some (a, k) => actAll b a (k.stop (seconds * nanos)).1 s

end Instance

end ChatRelay
