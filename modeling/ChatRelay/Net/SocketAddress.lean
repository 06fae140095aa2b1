import ChatRelay.Text.Decimal
import ChatRelay.Text.Quoted
import ChatRelay.Text.Split

/-!
# Socket addresses

An IP address with a port, as text. Version 4 is written in dotted decimal. Version 6 stands in
brackets and is written in lower-case hexadecimal groups without leading zeros, with the longest
run of at least two zero groups as a double colon, the first such run if there are several; an
address that maps one of version 4 shows it in dotted decimal. Reading accepts every spelling of
an address but no zero-padded decimals.
-/

namespace ChatRelay.Net

/-- An IP address: four bytes, or eight groups of 16 bits and a scope. -/
inductive IpAddress where
  | v4 (a b c d : Nat)
  | v6 (groups : List Nat)
  deriving DecidableEq, Repr

/-- An IP address with a port; one of version 6 may have a scope. -/
structure SocketAddress where
  ip : IpAddress
  scope : Nat
  port : Nat
  deriving DecidableEq, Repr

/-! ## Reading -/

/-- A byte in decimal, without leading zeros. -/
def byte? (cs : List Char) : Option Nat :=
  if cs.length ≤ 3 ∧ (cs.length = 1 ∨ cs.head? ≠ some '0') then
    (Text.Decimal.digits? cs).filter (· < 256)
  else none

/-- Four bytes with dots between them. -/
def dotted? (cs : List Char) : Option (Nat × Nat × Nat × Nat) :=
  match (Text.splitChars '.' cs).mapM byte? with
  | some [a, b, c, d] => some (a, b, c, d)
  | _ => none

/-- The value of a hexadecimal digit. -/
def hexDigit? (c : Char) : Option Nat :=
  if '0' ≤ c ∧ c ≤ '9' then some (c.toNat - 48)
  else if 'a' ≤ c ∧ c ≤ 'f' then some (c.toNat - 87)
  else if 'A' ≤ c ∧ c ≤ 'F' then some (c.toNat - 55)
  else none

/-- A group of one to four hexadecimal digits. -/
def group? (cs : List Char) : Option Nat :=
  if cs.isEmpty ∨ 4 < cs.length then none
  else (cs.mapM hexDigit?).map (List.foldl (16 * · + ·) 0)

/-- Groups with colons between them; the last one may be two groups in dotted decimal. -/
def groups? : List (List Char) → Option (List Nat)
  | [] => some []
  | [last] =>
    match group? last with
    | some g => some [g]
    | none => (dotted? last).map fun (a, b, c, d) => [256 * a + b, 256 * c + d]
  | piece :: pieces => (group? piece).bind fun g => (groups? pieces).map (g :: ·)

/-- Groups in front of a double colon, which may be none; dotted decimal cannot stand there. -/
def frontGroups? (cs : List Char) : Option (List Nat) :=
  if cs.isEmpty then some [] else (Text.splitChars ':' cs).mapM group?

/-- Groups behind a double colon, which may be none. -/
def backGroups? (cs : List Char) : Option (List Nat) :=
  if cs.isEmpty then some [] else groups? (Text.splitChars ':' cs)

/-- What stands in front of and behind the first double colon. -/
def splitDoubleColon? : List Char → Option (List Char × List Char)
  | ':' :: ':' :: rest => some ([], rest)
  | c :: rest => (splitDoubleColon? rest).map fun (front, back) => (c :: front, back)
  | [] => none

/-- The eight groups of an address. -/
def eightGroups? (cs : List Char) : Option (List Nat) :=
  match splitDoubleColon? cs with
  | none => (groups? (Text.splitChars ':' cs)).filter (·.length = 8)
  | some (front, back) =>
    (frontGroups? front).bind fun f =>
      (backGroups? back).bind fun g =>
        if f.length + g.length < 8 then
          some (f ++ List.replicate (8 - f.length - g.length) 0 ++ g)
        else none

/-- A port. -/
def port? (cs : List Char) : Option Nat :=
  (Text.Decimal.digits? cs).filter (· < 65536)

/-- An address in brackets with an optional scope, and a port. -/
def bracketed? (cs : List Char) : Option SocketAddress :=
  (Text.splitOnce? ']' cs).bind fun (inside, behind) =>
    match behind with
    | ':' :: port =>
      (port? port).bind fun port =>
        match Text.splitOnce? '%' inside with
        | none => (eightGroups? inside).map fun g => ⟨.v6 g, 0, port⟩
        | some (address, scope) =>
          (eightGroups? address).bind fun g =>
            ((Text.Decimal.digits? scope).filter (· < UInt32.size)).map fun scope =>
              ⟨.v6 g, scope, port⟩
    | _ => none

/-- Read a socket address. -/
def SocketAddress.ofText? (text : String) : Option SocketAddress :=
  match text.toList with
  | '[' :: rest => bracketed? rest
  | cs =>
    (Text.splitOnce? ':' cs).bind fun (address, port) =>
      (dotted? address).bind fun (a, b, c, d) =>
        (port? port).map fun port => ⟨.v4 a b c d, 0, port⟩

/-! ## Writing -/

def dottedText (a b c d : Nat) : String :=
  ".".intercalate ([a, b, c, d].map toString)

/-- The length of the run of zeros at the front. -/
def zeroRun : List Nat → Nat
  | 0 :: rest => zeroRun rest + 1
  | _ => 0

/-- Where the longest run of zeros begins, and how long it is; the first one of several. -/
def longestRun : List Nat → Nat × Nat
  | [] => (0, 0)
  | g :: rest =>
    let later := longestRun rest
    let here := zeroRun (g :: rest)
    if later.2 ≤ here then (0, here) else (later.1 + 1, later.2)

def groupsText (groups : List Nat) : String :=
  ":".intercalate (groups.map Text.hexDigits)

/-- An IP address as text, without brackets. -/
def IpAddress.toText : IpAddress → String
  | v4 a b c d => dottedText a b c d
  | v6 [0, 0, 0, 0, 0, 0xffff, x, y] =>
    "::ffff:" ++ dottedText (x / 256) (x % 256) (y / 256) (y % 256)
  | v6 groups =>
    let (start, length) := longestRun groups
    if 2 ≤ length then
      groupsText (groups.take start) ++ "::" ++ groupsText (groups.drop (start + length))
    else groupsText groups

def SocketAddress.toText (a : SocketAddress) : String :=
  let port := ":" ++ toString a.port
  match a.ip with
  | .v4 .. => a.ip.toText ++ port
  | .v6 _ =>
    let scope := if a.scope = 0 then "" else "%" ++ toString a.scope
    "[" ++ a.ip.toText ++ scope ++ "]" ++ port

example : (SocketAddress.ofText? "[2001:db8:0:0:0:0:0:1]:1").map SocketAddress.toText =
    some "[2001:db8::1]:1" := by decide +kernel

end ChatRelay.Net
