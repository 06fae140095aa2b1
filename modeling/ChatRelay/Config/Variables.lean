import ChatRelay.Text.Blank
import ChatRelay.Text.Decimal
import ChatRelay.Text.Split

/-!
# Configuration variables

Settings come as named texts. Blanks around a text do not count, and a blank text counts as none.
A setting of another type is read from the text whole or not at all.
-/

namespace ChatRelay.Config

/-- The text of each variable that is set. -/
abbrev Variables := String → Option String

/-- Why a configuration is refused. -/
inductive ConfigError where
  | missing (name : String)
  /-- The value is shown, or the rule that it breaks. -/
  | invalid (name reason : String)
  deriving DecidableEq, Repr

def ConfigError.message : ConfigError → String
  | missing name => "Missing required environment variable: " ++ name
  | invalid name reason => "Invalid value for " ++ name ++ ": " ++ reason

/-! ## Types of settings -/

/-- A natural number below `bound`. -/
def nat? (bound : Nat) (text : String) : Option Nat :=
  Text.Decimal.natBelow? bound text.toList

/-- A count, or a time. -/
def count? : String → Option Nat := nat? UInt64.size

/-- A port, or another number of 16 bits. -/
def port? : String → Option Nat := nat? UInt16.size

def bool? (text : String) : Option Bool :=
  if text = "true" then some true else if text = "false" then some false else none

namespace Variables

variable {α : Type}

/-- The text of a variable without the blanks around it, unless nothing remains. -/
def text? (vars : Variables) (name : String) : Option String :=
  ((vars name).map Text.trim).filter fun s => !s.isEmpty

/-- The value that a text stands for. -/
def parse (name : String) (of? : String → Option α) (text : String) : Except ConfigError α :=
  match of? text with
  | some a => .ok a
  | none => .error (.invalid name text)

/-- A setting that may be left out. -/
def get? (vars : Variables) (name : String) (of? : String → Option α) :
    Except ConfigError (Option α) :=
  match vars.text? name with
  | none => .ok none
  | some text => (parse name of? text).map some

/-- A setting with a default. -/
def getD (vars : Variables) (name : String) (of? : String → Option α) (dflt : α) :
    Except ConfigError α :=
  match vars.text? name with
  | none => .ok dflt
  | some text => parse name of? text

/-- A setting that has to be there. -/
def require (vars : Variables) (name : String) (of? : String → Option α) : Except ConfigError α :=
  match vars.text? name with
  | none => .error (.missing name)
  | some text => parse name of? text

/-- A list with commas, of which blank pieces do not count. -/
def list (vars : Variables) (name : String) (of? : String → Option α) :
    Except ConfigError (List α) :=
  match vars.text? name with
  | none => .ok []
  | some text =>
    (((Text.split ',' text).map Text.trim).filter fun s => !s.isEmpty).mapM (parse name of?)

end Variables

end ChatRelay.Config
