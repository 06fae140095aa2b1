import ChatRelay.Json.Fault

/-!
# JSON tokens

The lexical units of a JSON text, without the blanks between them. A text and a number are either
*kept* (their value goes into a message) or *skipped* (they belong to a member that nobody asked
for), and the two ways of reading them differ: a skipped text may hold bytes that are no UTF-8 and
unpaired surrogates, and a skipped number may have any size. A token therefore records what both
ways make of it. A broken token is always the last one of a text.

`Token.spell` writes the canonical form of a token, which is how messages are printed.
-/

namespace ChatRelay.Json

/-- What a number literal denotes when it is kept. -/
inductive Number where
  /-- An integer literal within the range of a signed or an unsigned 64-bit integer. -/
  | whole (value : Int)
  /-- A finite number that is not read as an integer: one with a fraction or an exponent, a minus
  zero, or an integer too large for 64 bits. -/
  | fractional
  /-- A number whose magnitude rounds to infinity. -/
  | infinite
  deriving DecidableEq, Repr

/-- A lexical unit of a JSON text. -/
inductive Token where
  | beginObject
  | endObject
  | beginArray
  | endArray
  | colon
  | comma
  | null
  | bool (value : Bool)
  | number (value : Number)
  /-- A complete text; it has no content if only skipping it is possible. -/
  | text (content : Option String)
  /-- A text that breaks off, with what keeping and skipping it come to. -/
  | brokenText (kept skipped : Flaw)
  /-- A number that breaks off, with what keeping it comes to. Skipping one is malformed. -/
  | brokenNumber (kept : Flaw)
  /-- A literal name that breaks off. -/
  | brokenWord (flaw : Flaw)
  /-- A byte that starts no token. -/
  | stray
  deriving DecidableEq, Repr

namespace Token

/-- Nothing is read after a broken token. -/
def isBroken : Token → Bool
  | brokenText .. | brokenNumber .. | brokenWord .. | stray => true
  | _ => false

/-- What is wrong with a token that stands where a value of another type is wanted: a scalar is
read whole first, a bracket is refused at once. -/
def refusal : Token → Fault
  | null | bool _ | number (.whole _) | number .fractional | text (some _) => .unfit
  | beginObject | beginArray => .unfit
  | number .infinite | text none => .malformed
  | brokenText kept _ => .flaw kept
  | brokenNumber kept => .flaw kept
  | brokenWord flaw => .flaw flaw
  | endObject | endArray | colon | comma | stray => .malformed

end Token

/-! ## Spelling -/

/-- Two lower-case hexadecimal digits after the four-character escape head. -/
def controlEscape (n : Nat) : String :=
  String.ofList ['\\', 'u', '0', '0', Nat.digitChar (n / 16), Nat.digitChar (n % 16)]

/-- One character of a text: the quote, the backslash and the controls are escaped, all else
stands for itself. -/
def spellChar (c : Char) : String :=
  match c with
  | '"' => "\\\""
  | '\\' => "\\\\"
  | '\x08' => "\\b"
  | '\x0c' => "\\f"
  | '\n' => "\\n"
  | '\r' => "\\r"
  | '\t' => "\\t"
  | c => if c.toNat < 0x20 then controlEscape c.toNat else c.toString

/-- A text between double quotes. -/
def spellText (s : String) : String :=
  "\"" ++ String.join (s.toList.map spellChar) ++ "\""

/-- The canonical spelling of a token; a token that denotes no value has none. -/
def Token.spell : Token → String
  | beginObject => "\x7b"
  | endObject => "\x7d"
  | beginArray => "["
  | endArray => "]"
  | colon => ":"
  | comma => ","
  | null => "null"
  | bool true => "true"
  | bool false => "false"
  | number (.whole i) => toString i
  | text (some s) => spellText s
  | _ => ""

/-- Write tokens one after the other, without blanks. -/
def render (ts : List Token) : String :=
  String.join (ts.map Token.spell)

end ChatRelay.Json
