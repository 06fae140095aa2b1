import ChatRelay.Config.Basic
import ChatRelay.Registry.Redis.Command
import ChatRelay.Registry.Redis.Url

/-!
# Connection settings for a Redis server

Connections are made when they are needed, so that settings are only checked for a well-formed URL
when they are put to use.
-/

namespace ChatRelay.Redis

/-- Where the server is, and how many connections may be open. -/
structure Settings where
  url : String
  maxConnections : Nat
  deriving DecidableEq, Repr

namespace Settings

/-- The settings that are taken where none are given. -/
def standard : Settings :=
  ⟨"redis://127.0.0.1:6379", 4⟩

def ofConfig (r : Config.RegistryConfig) : Settings :=
  ⟨r.redisUrl, r.maxConnections⟩

/-- Check the settings before they are used. -/
def check (s : Settings) : Except Failure Settings :=
  if isUrl s.url then .ok s else .error (.settings "Redis URL did not parse")

end Settings

end ChatRelay.Redis
