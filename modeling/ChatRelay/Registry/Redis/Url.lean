import ChatRelay.Net.Url
import ChatRelay.Text.Decimal

/-!
# The URL of a Redis server

A server is named by a URL of the scheme `redis` with a host, whose path may be the number of a
database; or by one of the scheme `unix` with the path of a socket on the local machine, whose
query may hold that number. A query may also choose the version of the protocol. Encrypted
connections are not offered. Nothing is connected to when a URL is checked.
-/

namespace ChatRelay.Redis

/-- The text is the number of a database. -/
def isDatabase (cs : List Char) : Bool :=
  (Text.Decimal.int64? cs).isSome

/-- The path is the number of a database or nothing, between slashes. -/
def hasDatabasePath (url : Net.Url) : Bool :=
  match (url.path.getD []).filter (!·.isEmpty) with
  | [] => true
  | [number] => isDatabase number
  | _ => false

/-- The query chooses a version of the protocol that is spoken, or none. -/
def hasProtocol (url : Net.Url) : Bool :=
  (url.parameter? "protocol").all fun version => ["2", "resp2", "3", "resp3"].contains version

/-- Credentials are text once their percent signs are followed. -/
def isCredential (cs : List Char) : Bool :=
  (String.fromUTF8? ⟨(Net.percentDecoded cs).toArray⟩).isSome

/-- The URL names a server that is reached over the network. -/
def isRemote (url : Net.Url) : Bool :=
  url.authority.host ≠ .missing && hasDatabasePath url &&
    isCredential url.authority.userName && isCredential url.authority.password

/-- The URL names a socket of the local machine. -/
def isSocket (url : Net.Url) : Bool :=
  url.path.isSome &&
    [Net.UrlHost.missing, .named "localhost".toList].contains url.authority.host &&
    (url.parameter? "db").all fun number => isDatabase number.toList

/-- The URL names a server that can be connected to. -/
def isUrl (text : String) : Bool :=
  match Net.Url.ofText? text with
  | none => false
  | some url =>
    hasProtocol url &&
      match url.scheme with
      | "redis" => isRemote url
      | "unix" | "redis+unix" => isSocket url
      | _ => false

end ChatRelay.Redis
