import ChatRelay.Net.SocketAddress

/-!
# Addresses of the machine itself

A listener can be opened only at an address that the machine itself has. These are the loopback
addresses and the one that stands for all addresses; no others are assumed. The host in front of
the last colon is a numeric address or `localhost`, and no other names are known. A numeric
address of version 4 has one to four numbers, each in decimal, octal or hexadecimal, and the last
one fills all the bytes that are left.
-/

namespace ChatRelay.Net

/-- One or more digits in a base of at most 16. -/
def digitsIn? (base : Nat) (cs : List Char) : Option Nat :=
  if cs.isEmpty then none
  else
    (cs.mapM fun c => (hexDigit? c).filter (· < base)).map (List.foldl (base * · + ·) 0)

/-- A number whose base is told by its beginning. -/
def number? : List Char → Option Nat
  | '0' :: 'x' :: cs | '0' :: 'X' :: cs => digitsIn? 16 cs
  | '0' :: cs => digitsIn? 8 ('0' :: cs)
  | cs => digitsIn? 10 cs

/-- Put numbers together to so many bytes, of which the last number fills all that are left. -/
def assemble? : Nat → List Nat → Option Nat
  | bytes + 1, [last] => if last < 1 <<< (8 * (bytes + 1)) then some last else none
  | bytes + 1, n :: rest =>
    if n < 256 then (assemble? bytes rest).map (n <<< (8 * bytes) + ·) else none
  | _, _ => none

/-- A numeric address of version 4. -/
def numericV4? (cs : List Char) : Option Nat :=
  ((Text.splitChars '.' cs).mapM number?).bind (assemble? 4)

/-- An address of version 4 that the machine has. -/
def isLocalV4 (address : Nat) : Bool :=
  address == 0 || address >>> 24 == 127

/-- An address of version 6 that the machine has. -/
def isLocalV6 (groups : List Nat) : Bool :=
  groups.take 7 == List.replicate 7 0 && groups.getLastD 0 ≤ 1

/-- A host is the machine itself. -/
def isLocalHost (cs : List Char) : Bool :=
  cs.map Char.toLower == "localhost".toList ||
    (numericV4? cs).any isLocalV4 || (eightGroups? cs).any isLocalV6

/-- Why no listener can be opened at an address, if none can. -/
def refusal? (address : String) : Option String :=
  match Text.splitOnce? ':' address.toList.reverse with
  | none => some "invalid socket address"
  | some (_, host) =>
    let isLocal :=
      match host.reverse with
      | '[' :: rest => rest.getLast? == some ']' && (eightGroups? rest.dropLast).any isLocalV6
      | cs => isLocalHost cs
    if isLocal then none else some "Cannot assign requested address"

example : refusal? "127.1:80" = none ∧ refusal? "0x7f000001:80" = none := by decide +kernel

example : refusal? "1.2.3.4:80" = some "Cannot assign requested address" := by decide +kernel

end ChatRelay.Net
