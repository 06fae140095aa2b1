/-!
# What can be wrong with a JSON text

A `Flaw` is a fault of the text itself: it ends too early, or it is no JSON. A `Fault` of reading
a value adds the third case, a text that is well formed but does not fit what is being read. A
mismatch carries a detail only where the rule that was broken belongs to this library.
-/

namespace ChatRelay.Json

/-- A fault of the text itself. -/
inductive Flaw where
  /-- The text ends inside or before the value. -/
  | truncated
  /-- The text is not JSON. -/
  | malformed
  deriving DecidableEq, Repr

/-- Why a value could not be read. -/
inductive Fault where
  | flaw (flaw : Flaw)
  /-- Well-formed text that does not fit the expected value. -/
  | mismatch (detail : Option String)
  deriving DecidableEq, Repr

namespace Fault

abbrev truncated : Fault := .flaw .truncated

abbrev malformed : Fault := .flaw .malformed

abbrev unfit : Fault := .mismatch none

end Fault

end ChatRelay.Json
