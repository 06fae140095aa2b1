import ChatRelay.Json.Lexer

/-!
# Walking over a value

A value that is not decoded still has to be well formed. `skip` passes over a value that nobody
asked for, whatever it holds and however deep it nests. `kept?` passes over a value that is first
taken in whole and judged afterwards: its texts must be UTF-8, its numbers finite, and its nesting
is limited. Both run one automaton over the tokens, with the open brackets on a stack; every token
is read once and in order, so the first fault of the text is the one reported.
-/

namespace ChatRelay.Json

/-- An open bracket. -/
inductive Container where
  | object
  | array
  deriving DecidableEq, Repr

/-- What the automaton waits for. -/
inductive Due where
  | value
  /-- The first item of an array, or its end. -/
  | firstItem
  /-- The first key of an object, or its end. -/
  | firstKey
  | key
  | colon
  /-- A comma, or the end of the innermost bracket. -/
  | separator
  deriving DecidableEq, Repr

/-- How a value is passed over. -/
inductive Manner where
  | skipping
  /-- Keeping, with room for less than `room` brackets inside each other. -/
  | keeping (room : Nat)
  deriving DecidableEq, Repr

/-- What one token leads to. -/
inductive Step where
  | more (due : Due) (stack : List Container)
  | finished
  | failed (flaw : Flaw)
  deriving DecidableEq, Repr

namespace Manner

/-- The flaw of a text that breaks off. -/
def ofBrokenText (manner : Manner) (kept skipped : Flaw) : Flaw :=
  match manner with
  | skipping => skipped
  | keeping _ => kept

/-- One more bracket may be opened inside `stack`. -/
def admits (manner : Manner) (stack : List Container) : Bool :=
  match manner with
  | skipping => true
  | keeping room => stack.length + 1 < room

/-- A text may be passed over. -/
def admitsText (manner : Manner) (content : Option String) : Bool :=
  match manner with
  | skipping => true
  | keeping _ => content.isSome

/-- A number may be passed over. -/
def admitsNumber (manner : Manner) (n : Number) : Bool :=
  match manner with
  | skipping => true
  | keeping _ => n != .infinite

end Manner

namespace Step

/-- A value is complete. -/
def complete (stack : List Container) : Step :=
  if stack.isEmpty then finished else more .separator stack

/-- The innermost bracket is closed. -/
def close (stack : List Container) : Step :=
  complete stack.tail

/-- A value begins with `token`. -/
def ofValue (manner : Manner) (stack : List Container) (token : Token) : Step :=
  match token with
  | .null | .bool _ => complete stack
  | .number n => if manner.admitsNumber n then complete stack else failed .malformed
  | .text content => if manner.admitsText content then complete stack else failed .malformed
  | .beginObject =>
    if manner.admits stack then more .firstKey (.object :: stack) else failed .malformed
  | .beginArray =>
    if manner.admits stack then more .firstItem (.array :: stack) else failed .malformed
  | .brokenText kept skipped => failed (manner.ofBrokenText kept skipped)
  | .brokenNumber kept => failed (manner.ofBrokenText kept .malformed)
  | .brokenWord flaw => failed flaw
  | .endObject | .endArray | .colon | .comma | .stray => failed .malformed

/-- A key is due and `token` stands there. -/
def ofKey (manner : Manner) (stack : List Container) (token : Token) : Step :=
  match token with
  | .text content => if manner.admitsText content then more .colon stack else failed .malformed
  | .brokenText kept skipped => failed (manner.ofBrokenText kept skipped)
  | _ => failed .malformed

/-- The step that one token makes. -/
def next (manner : Manner) (due : Due) (stack : List Container) (token : Token) : Step :=
  match due, token with
  | .value, token => ofValue manner stack token
  | .firstItem, .endArray => close stack
  | .firstItem, token => ofValue manner stack token
  | .firstKey, .endObject => close stack
  | .firstKey, token => ofKey manner stack token
  | .key, token => ofKey manner stack token
  | .colon, .colon => more .value stack
  | .colon, _ => failed .malformed
  | .separator, .comma =>
    match stack.head? with
    | some .array => more .value stack
    | some .object => more .key stack
    | none => failed .malformed
  | .separator, .endArray => if stack.head? = some .array then close stack else failed .malformed
  | .separator, .endObject =>
    if stack.head? = some .object then close stack else failed .malformed
  | .separator, _ => failed .malformed

end Step

/-- Pass over the rest of a value and return the tokens behind it. -/
def walk (manner : Manner) (due : Due) (stack : List Container) :
    List Token → Except Flaw (List Token)
  | [] => .error .truncated
  | token :: rest =>
    match Step.next manner due stack token with
    | .more due stack => walk manner due stack rest
    | .finished => .ok rest
    | .failed flaw => .error flaw

/-- Pass over a value that nobody asked for. -/
def skip (ts : List Token) : Except Flaw (List Token) :=
  walk .skipping .value [] ts

theorem length_walk_lt {manner : Manner} {due : Due} {stack : List Container}
    {ts rest : List Token} (h : walk manner due stack ts = .ok rest) :
    rest.length < ts.length := by
  fun_induction walk manner due stack ts <;> simp_all <;> omega

theorem length_skip_lt {ts rest : List Token} (h : skip ts = .ok rest) :
    rest.length < ts.length :=
  length_walk_lt h

end ChatRelay.Json
