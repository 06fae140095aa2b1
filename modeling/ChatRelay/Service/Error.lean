import ChatRelay.Config.Variables
import ChatRelay.Registry.Action

/-!
# Why an instance does not run

What can go wrong when a server is put together and its listeners are opened, and the failures of
a whole instance, each with a stable code.
-/

namespace ChatRelay

/-- What a server cannot do without. -/
inductive Dependency where
  | serverId
  | businessTier
  deriving DecidableEq, Repr

def Dependency.name : Dependency → String
  | serverId => "server_id"
  | businessTier => "logic"

/-- Why a server does not start. -/
inductive StartError where
  /-- An address cannot be listened at. -/
  | bind (address reason : String)
  | missing (dependency : Dependency)
  /-- A listener failed later on. -/
  | listener (reason : String)
  /-- The client for the business tier cannot be set up. -/
  | tierClient (reason : String)
  deriving DecidableEq, Repr

def bindMessage (address reason : String) : String :=
  "Failed to bind " ++ address ++ ": " ++ reason

def StartError.message : StartError → String
  | bind address reason => bindMessage address reason
  | missing dependency => "Server is missing " ++ dependency.name
  | listener reason => "Listener failed: " ++ reason
  | tierClient reason => "Logic client error: " ++ reason

/-- Why an instance does not run. -/
inductive AppError where
  | config (error : Config.ConfigError)
  | bind (address reason : String)
  | cache (reason : String)
  | registry (error : RegistryError)
  | internal (reason : String)
  deriving DecidableEq, Repr

namespace AppError

def message : AppError → String
  | config error => "Configuration error: " ++ error.message
  | bind address reason => bindMessage address reason
  | cache reason => "Cache error: " ++ reason
  | registry error => error.message
  | internal reason => "Internal error: " ++ reason

def code : AppError → String
  | config _ => "CONFIG_ERROR"
  | bind .. => "BIND_ERROR"
  | cache _ => "CACHE_ERROR"
  | registry _ => "REGISTRY_ERROR"
  | internal _ => "INTERNAL_ERROR"

/-- The failure of an instance whose server does not start. -/
def ofStartError : StartError → AppError
  | .bind address reason => bind address reason
  | e => internal e.message

end AppError

end ChatRelay
