import ChatRelay.Http.Message
import ChatRelay.Text.Split

/-!
# Route patterns

A route is named by a path in which a part between slashes may end in a capture: a colon and a
name, which takes any text without slashes, or, at the end of the path, a star and a name, which
takes all that follows. A pattern that does not begin with a slash, leaves a capture unnamed, or
has two captures in one part cannot be served.
-/

namespace ChatRelay.Http

/-- A part of a pattern between slashes. -/
inductive RoutePart where
  | literal (text : List Char)
  /-- A text that begins as given and is not at its end there. -/
  | capture (start : List Char)
  /-- All that follows. -/
  | remainder
  deriving DecidableEq, Repr

def isWildcard (c : Char) : Bool :=
  c == ':' || c == '*'

/-- Read a part of a pattern. -/
def RoutePart.ofChars? (isLast : Bool) (cs : List Char) : Option RoutePart :=
  let start := cs.takeWhile fun c => !isWildcard c
  match cs.dropWhile fun c => !isWildcard c with
  | [] => some (.literal cs)
  | mark :: name =>
    if name.isEmpty ∨ name.any isWildcard then none
    else if mark = ':' then some (.capture start)
    else if start.isEmpty ∧ isLast then some .remainder
    else none

/-- Read the parts of a pattern. -/
def routeParts? : List (List Char) → Option (List RoutePart)
  | [] => some []
  | [cs] => (RoutePart.ofChars? true cs).map fun part => [part]
  | cs :: rest => (RoutePart.ofChars? false cs).bind fun part => (routeParts? rest).map (part :: ·)

/-- Read a pattern. -/
def route? (pattern : String) : Option (List RoutePart) :=
  match pattern.toList with
  | '/' :: rest => routeParts? (Text.splitChars '/' rest)
  | _ => none

/-- The parts of a path fit those of a pattern. -/
def fits : List RoutePart → List (List Char) → Bool
  | [], [] => true
  | .remainder :: _, part :: parts => !(part.isEmpty && parts.isEmpty)
  | .literal text :: route, part :: parts => text == part && fits route parts
  | .capture start :: route, part :: parts =>
    start.isPrefixOf part && start.length < part.length && fits route parts
  | _, _ => false

/-- A request target belongs to a pattern; its query and its fragment are ignored. -/
def isServed (pattern target : String) : Bool :=
  match route? pattern, targetPath target with
  | some route, '/' :: rest => fits route (Text.splitChars '/' rest)
  | _, _ => false

end ChatRelay.Http
