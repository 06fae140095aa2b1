import ChatRelay.Net.SocketAddress
import ChatRelay.Text.Utf8

/-!
# Locators

A locator is a scheme and, behind two slashes, an authority: credentials, a host and a port. A
path, a query and a fragment follow, and all of them but the scheme may be left out. Reading is
lenient: blanks and control characters around a locator do not count, tabs and line breaks count
nowhere, and the dots that stand for steps in a path are followed. The rules are those for schemes
of which nothing more is known: a backslash is a character like others, a host need not be the
name of a machine, and no port belongs to a scheme.
-/

namespace ChatRelay.Net

/-! ## Percent encoding -/

/-- The bytes of characters. -/
def bytesOf (cs : List Char) : List UInt8 :=
  (String.ofList cs).toByteArray.data.toList

/-- The bytes of what stands behind a percent sign: the byte that two hexadecimal digits name, or
else the percent sign itself, and then all the rest. -/
def percentPiece : List Char → List UInt8
  | x :: y :: rest =>
    match hexDigit? x, hexDigit? y with
    | some high, some low => UInt8.ofNat (16 * high + low) :: bytesOf rest
    | _, _ => bytesOf ('%' :: x :: y :: rest)
  | cs => bytesOf ('%' :: cs)

/-- The bytes of a text in which a percent sign and two hexadecimal digits stand for a byte. -/
def percentDecoded (cs : List Char) : List UInt8 :=
  match Text.splitChars '%' cs with
  | [] => []
  | first :: pieces => bytesOf first ++ pieces.flatMap percentPiece

example : percentDecoded "a%41%4".toList = [0x61, 0x41, 0x25, 0x34] := by decide +kernel

/-- A name or a value of a form: a plus is a blank, and then percent signs are followed. -/
def formText (cs : List Char) : String :=
  Text.ofUtf8Lossy (percentDecoded (cs.map fun c => if c = '+' then ' ' else c))

example : formText "%41+b".toList = "A b" := by cbv

/-- The names and values of a form, in order. A name may stand without a value. -/
def formPairs (cs : List Char) : List (String × String) :=
  ((Text.splitChars '&' cs).filter (!·.isEmpty)).map fun pair =>
    let (name, value) := (Text.splitOnce? '=' pair).getD (pair, [])
    (formText name, formText value)

/-! ## Hosts and authorities -/

/-- The host of a locator. -/
inductive UrlHost where
  | missing
  | named (name : List Char)
  | address (groups : List Nat)
  deriving DecidableEq, Repr

/-- No name of a host holds the character. -/
def isForbiddenInHost (c : Char) : Bool :=
  "\x00\t\n\r #/:<>?@[\\]^|".toList.contains c

/-- Read a host: an address of version 6 in brackets, or a name. -/
def UrlHost.ofChars? : List Char → Option UrlHost
  | [] => some .missing
  | '[' :: rest =>
    if rest.getLast? = some ']' then (eightGroups? rest.dropLast).map .address else none
  | cs => if cs.any isForbiddenInHost then none else some (.named cs)

/-- Credentials, a host and a port. -/
structure Authority where
  /-- The name of a user, with its percent signs. -/
  userName : List Char
  /-- The password, with its percent signs. -/
  password : List Char
  host : UrlHost
  port : Option Nat
  deriving DecidableEq, Repr

namespace Authority

/-- The authority of a locator that has none. -/
def missing : Authority :=
  ⟨[], [], .missing, none⟩

/-- Cut credentials off at the last `@`. -/
def splitCredentials (cs : List Char) : List Char × List Char :=
  match Text.splitOnce? '@' cs.reverse with
  | some (host, credentials) => (credentials.reverse, host.reverse)
  | none => ([], cs)

/-- Cut a host off at the first colon outside of brackets. -/
def splitHost (isInside : Bool) : List Char → List Char × List Char
  | [] => ([], [])
  | c :: cs =>
    if c = ':' ∧ !isInside then ([], c :: cs)
    else
      let (host, rest) := splitHost (c == '[' || isInside && c != ']') cs
      (c :: host, rest)

/-- Cut a port off that stands behind a colon. Its digits may be left out, and it ends where the
authority does or at a backslash. -/
def splitPort? : List Char → Option (Option Nat × List Char)
  | ':' :: cs =>
    let digits := cs.takeWhile Char.isDigit
    let rest := cs.dropWhile Char.isDigit
    if rest.head?.any (· ≠ '\\') then none
    else if digits.isEmpty then some (none, rest)
    else (port? digits).map fun port => (some port, rest)
  | cs => some (none, cs)

/-- Read an authority, and keep what stands behind its port. Credentials and ports need a host. -/
def ofChars? (cs : List Char) : Option (Authority × List Char) :=
  let (credentials, address) := splitCredentials cs
  let (userName, password) := (Text.splitOnce? ':' credentials).getD (credentials, [])
  let (host, port) := splitHost false address
  (UrlHost.ofChars? host).bind fun host =>
    if host = .missing ∧ !(userName.isEmpty && password.isEmpty && port.isEmpty) then none
    else (splitPort? port).map fun (port, rest) => (⟨userName, password, host, port⟩, rest)

end Authority

/-! ## Paths -/

/-- How many dots a part of a path is made of, if it is made of dots alone; a dot may be encoded
by a percent sign. -/
def dots? : List Char → Option Nat
  | [] => some 0
  | '.' :: rest => (dots? rest).map (· + 1)
  | '%' :: '2' :: 'e' :: rest => (dots? rest).map (· + 1)
  | '%' :: '2' :: 'E' :: rest => (dots? rest).map (· + 1)
  | _ => none

/-- A part of a path that names a drive: a letter and a colon or a bar. -/
def isDrive : List Char → Bool
  | letter :: mark :: rest =>
    letter.isAlpha && (mark == ':' || mark == '|') && (rest.isEmpty || rest.head? == some '\\')
  | _ => false

/-- The parts that are left, innermost first, when a path leads one step up. There is nothing
above the root or above a drive. -/
def stepUp : List (List Char) → List (List Char)
  | [] => []
  | part :: above => if isDrive part then part :: above else above

/-- Follow the dots of a path below `above`, which is innermost first. -/
def followDots (above : List (List Char)) : List (List Char) → List (List Char)
  | [] => above.reverse
  | part :: parts =>
    match dots? part with
    | some 1 => followDots above parts
    | some 2 => followDots (stepUp above) parts
    | _ => followDots (part :: above) parts

/-- The parts of a path that begins with a slash. -/
def pathParts? : List Char → Option (List (List Char))
  | '/' :: rest => some (followDots [] (Text.splitChars '/' rest))
  | _ => none

/-! ## Locators -/

/-- A scheme may hold the character behind its first letter. -/
def isSchemeChar (c : Char) : Bool :=
  c.isAlphanum || "+-.".toList.contains c

/-- A locator without its fragment. -/
structure Url where
  scheme : String
  authority : Authority
  /-- The parts of the path, if it begins with a slash. -/
  path : Option (List (List Char))
  /-- What stands behind the question mark, as written. -/
  query : List Char
  deriving DecidableEq, Repr

namespace Url

/-- The characters of a locator that count. -/
def cleaned (text : String) : List Char :=
  let isAround (c : Char) : Bool := c.toNat ≤ 0x20
  (((text.toList.dropWhile isAround).reverse.dropWhile isAround).reverse).filter fun c =>
    !"\t\n\r".toList.contains c

/-- The scheme in lower case, and what stands behind its colon. -/
def splitScheme? (cs : List Char) : Option (String × List Char) :=
  (Text.splitOnce? ':' cs).bind fun (scheme, rest) =>
    match scheme with
    | first :: more =>
      if first.isAlpha ∧ more.all isSchemeChar then
        some (String.ofList (scheme.map Char.toLower), rest)
      else none
    | [] => none

/-- A locator whose path, query and fragment are still together. -/
def ofParts (scheme : String) (authority : Authority) (cs : List Char) : Url where
  scheme := scheme
  authority := authority
  path := pathParts? (cs.takeWhile fun c => c ≠ '?' ∧ c ≠ '#')
  query :=
    match cs.dropWhile fun c => c ≠ '?' ∧ c ≠ '#' with
    | '?' :: query => query.takeWhile (· ≠ '#')
    | _ => []

/-- Read a locator. An `@` alone can only be the whole of what follows the slashes, and what
follows a backslash behind a port belongs to the path. -/
def ofText? (text : String) : Option Url :=
  (splitScheme? (cleaned text)).bind fun (scheme, rest) =>
    match rest with
    | '/' :: '/' :: rest =>
      let isInside (c : Char) : Bool := !"/?#".toList.contains c
      let authority := rest.takeWhile isInside
      let rest := rest.dropWhile isInside
      if authority = ['@'] ∧ rest ≠ [] then none
      else
        (Authority.ofChars? authority).map fun (authority, behind) =>
          ofParts scheme authority (if behind.isEmpty then rest else '/' :: behind ++ rest)
    | rest => some (ofParts scheme .missing rest)

/-- The value of a name in the query; of several the last one counts. -/
def parameter? (url : Url) (name : String) : Option String :=
  (formPairs url.query).reverse.lookup name

end Url

example : (Url.ofText? " Redis://u:p@[::1]:80/a/./b/%2E./c?x=%41+b#f\n").map
    (fun u => (u.scheme, u.authority.port, u.path.map List.length)) =
    some ("redis", some 80, some 2) := by decide +kernel

end ChatRelay.Net
