import ChatRelay.Registry.Entry

/-!
# Actions on a registry

What an instance does with its entries: it announces them, extends their lifetime from time to
time, and withdraws them.
-/

namespace ChatRelay

/-- Why a registry could not do what was asked. -/
inductive RegistryError where
  | backend (reason : String)
  | invalidEntry (key reason : String)
  deriving DecidableEq, Repr

def RegistryError.message : RegistryError → String
  | backend reason => "Registry backend error: " ++ reason
  | invalidEntry key reason => "Invalid registry entry at " ++ key ++ ": " ++ reason

/-- What is done with an entry. -/
inductive RegistryVerb where
  | register
  | refresh
  | deregister
  deriving DecidableEq, Repr

def RegistryVerb.name : RegistryVerb → String
  | register => "register"
  | refresh => "refresh"
  | deregister => "deregister"

def RegistryVerb.ofName? (name : String) : Option RegistryVerb :=
  [register, refresh, deregister].find? (·.name == name)

/-- An action on one entry. -/
structure RegistryAction where
  verb : RegistryVerb
  entry : ServiceEntry
  deriving DecidableEq, Repr

/-- The same action on every entry, in turn. -/
def RegistryAction.each (verb : RegistryVerb) (entries : List ServiceEntry) : List RegistryAction :=
  entries.map fun entry => ⟨verb, entry⟩

end ChatRelay
