import ChatRelay.Text.Unprintable

/-!
# Quoted text

How a message shows a piece of text that it could not accept: between double quotes, with the
quote and the backslash escaped, the common controls by a letter, and every other unprintable
character by its code point in lower-case hexadecimal. The apostrophe needs no escape.
-/

namespace ChatRelay.Text

/-- The digits of `n` in lower-case hexadecimal. -/
def hexDigits (n : Nat) : String :=
  String.ofList (Nat.toDigits 16 n)

/-- One character inside double quotes. -/
def quoteChar (c : Char) : String :=
  match c with
  | '"' => "\\\""
  | '\\' => "\\\\"
  | '\n' => "\\n"
  | '\r' => "\\r"
  | '\t' => "\\t"
  | '\x00' => "\\0"
  | c => if isUnprintable c then "\\u\x7b" ++ hexDigits c.toNat ++ "\x7d" else c.toString

/-- The text between double quotes. -/
def quoted (s : String) : String :=
  "\"" ++ String.join (s.toList.map quoteChar) ++ "\""

end ChatRelay.Text
