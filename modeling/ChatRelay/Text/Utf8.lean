/-!
# Reading UTF-8 that may be broken

Bytes are read as characters, and what cannot be read becomes the replacement character: one for
every byte that begins no character, and one for every beginning of a character that is not
completed. The byte that breaks a beginning off is read anew.
-/

namespace ChatRelay.Text

/-- The beginning of a character: the bits so far, the bytes that are missing, and the range of
the next one. -/
structure Utf8Start where
  bits : Nat
  missing : Nat
  low : UInt8
  high : UInt8

/-- What a byte is when no character has begun. -/
inductive Utf8Lead where
  | whole (c : Char)
  | start (s : Utf8Start)
  | broken

/-- The character that stands for what cannot be read. -/
def replacement : Char := '\ufffd'

/-- Read a byte when no character has begun. -/
def utf8Lead (b : UInt8) : Utf8Lead :=
  if b < 0x80 then .whole (Char.ofNat b.toNat)
  else if 0xc2 ≤ b ∧ b ≤ 0xdf then .start ⟨b.toNat - 0xc0, 1, 0x80, 0xbf⟩
  else if 0xe0 ≤ b ∧ b ≤ 0xef then
    .start ⟨b.toNat - 0xe0, 2, if b = 0xe0 then 0xa0 else 0x80, if b = 0xed then 0x9f else 0xbf⟩
  else if 0xf0 ≤ b ∧ b ≤ 0xf4 then
    .start ⟨b.toNat - 0xf0, 3, if b = 0xf0 then 0x90 else 0x80, if b = 0xf4 then 0x8f else 0xbf⟩
  else .broken

/-- The characters of bytes behind the beginning of a character, if one has begun. -/
def utf8From : Option Utf8Start → List UInt8 → List Char
  | none, [] => []
  | some _, [] => [replacement]
  | none, b :: bytes => lead b bytes
  | some s, b :: bytes =>
    if s.low ≤ b ∧ b ≤ s.high then
      let bits := 64 * s.bits + (b.toNat - 0x80)
      if s.missing ≤ 1 then Char.ofNat bits :: utf8From none bytes
      else utf8From (some ⟨bits, s.missing - 1, 0x80, 0xbf⟩) bytes
    else replacement :: lead b bytes
where
  /-- The characters of a byte that begins anew, and of what follows it. -/
  lead (b : UInt8) (bytes : List UInt8) : List Char :=
    match utf8Lead b with
    | .whole c => c :: utf8From none bytes
    | .start s => utf8From (some s) bytes
    | .broken => replacement :: utf8From none bytes

/-- The text of bytes, with replacements for what cannot be read. -/
def ofUtf8Lossy (bytes : List UInt8) : String :=
  String.ofList (utf8From none bytes)

end ChatRelay.Text
