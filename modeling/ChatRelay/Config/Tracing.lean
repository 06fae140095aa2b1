import ChatRelay.Config.Basic

/-!
# Tracing settings

How much an instance logs. In production it logs less, and names threads rather than lines.
-/

namespace ChatRelay.Config

inductive LogLevel where
  | debug
  | info
  deriving DecidableEq, Repr

def LogLevel.name : LogLevel → String
  | debug => "DEBUG"
  | info => "INFO"

/-- How much an instance logs, and in which form. -/
structure TracingConfig where
  level : LogLevel
  format : LogFormat
  spanEvents : Bool
  fileLine : Bool
  threadIds : Bool
  deriving DecidableEq, Repr

namespace TracingConfig

/-- The settings of an environment. -/
def forEnvironment (environment : Environment) (format : LogFormat) : TracingConfig :=
  match environment with
  | .production => ⟨.info, format, false, false, true⟩
  | .development | .staging => ⟨.debug, format, true, true, false⟩

def standard : TracingConfig :=
  forEnvironment .development .pretty

/-- What is said when a second subscriber is installed. -/
def installedMessage : String := "Tracing subscriber already initialized"

end TracingConfig

def AppConfig.tracing (c : AppConfig) : TracingConfig :=
  .forEnvironment c.environment c.logFormat

end ChatRelay.Config
