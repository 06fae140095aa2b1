import ChatRelay.Json.Record
import ChatRelay.Text.Split

/-!
# Registry entries

An instance announces each of its transports by an entry: who serves, what it serves, and the
address at which it takes pushes. A registry that stores texts under keys holds the address in the
key and the rest as metadata, a list of `name=value` pairs. Reading metadata takes the last
non-empty value of each name and ignores all other pairs.
-/

namespace ChatRelay

/-- One announced transport of an instance. -/
structure ServiceEntry where
  serverId : String
  serverType : String
  /-- Where the instance takes pushes. -/
  address : String
  deriving DecidableEq, Repr

namespace ServiceEntry

/-- The type of an instance that serves WebSocket clients. -/
def wsType : String := "ws"

/-- The type of an instance that serves raw connections. -/
def tcpType : String := "tcp"

def metadata (e : ServiceEntry) : String :=
  "serverId=" ++ e.serverId ++ "&serverType=" ++ e.serverType

/-- The last non-empty value of a name in a list of pairs. -/
def lastValue? (name : String) (pairs : List (List Char)) : Option String :=
  (pairs.filterMap fun pair =>
    match Text.splitOnce? '=' pair with
    | some (key, value) =>
      if key = name.toList ∧ value ≠ [] then some (String.ofList value) else none
    | none => none).getLast?

/-- The entry of an address and its metadata, if the metadata says who serves what. -/
def ofMetadata? (address metadata : String) : Option ServiceEntry :=
  let pairs := Text.splitChars '&' metadata.toList
  (lastValue? "serverId" pairs).bind fun serverId =>
    (lastValue? "serverType" pairs).map fun serverType => ⟨serverId, serverType, address⟩

def wire : Json.Codec ServiceEntry :=
  (Json.Fields.cons "server_id" .text none <| .cons "server_type" .text none <|
    .cons "address" .text none .nil).codec.map
    (fun (serverId, serverType, address, ()) => ⟨serverId, serverType, address⟩)
    (fun e => (e.serverId, e.serverType, e.address, ()))

/-- Entries are listed by server, then by type, then by address. -/
def le (a b : ServiceEntry) : Bool :=
  if a.serverId = b.serverId then
    if a.serverType = b.serverType then a.address ≤ b.address
    else a.serverType < b.serverType
  else a.serverId < b.serverId

/-! ## Keys -/

/-- The part of a key that all entries under a base path share. -/
def keyBase (basePath : String) : String :=
  Text.trimEnd '/' basePath ++ "/"

/-- The key of an entry under a base path. -/
def key (basePath : String) (e : ServiceEntry) : String :=
  keyBase basePath ++ e.serverType ++ "/" ++ e.address

/-- The address in a key: what stands behind the last slash. -/
def addressOfKey (key : String) : String :=
  String.ofList (key.toList.reverse.takeWhile (· ≠ '/')).reverse

end ServiceEntry

/-- All entries that are announced at a moment. -/
abbrev Snapshot := List ServiceEntry

end ChatRelay
