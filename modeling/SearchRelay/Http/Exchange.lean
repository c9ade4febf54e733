import SearchRelay.Http.Url
import SearchRelay.Text.Utf8

/-!
Exchanges with a server: what is sent, and the three ways it can end. A server that cannot be
reached and one that stops in the middle of its answer are outcomes like any other, so nothing
that holds for every exchange assumes a good network.
-/

namespace SearchRelay

open Text (Bytes)

structure HttpRequest where
  method : String
  url : Url
  headers : List (String × String)
  body : Bytes

inductive HttpReply where
  | answered (status : Nat) (body : Bytes)
  /-- The connection ended before the body did. -/
  | cutOff (status : Nat)
  /-- There was no answer at all. -/
  | unreachable

namespace HttpRequest

/-- A text that can be the value of a header: it holds no control character other than the tab. -/
def isHeaderValue (value : String) : Bool :=
  value.toList.all fun c => c == '\t' || (0x20 ≤ c.toNat && c.toNat != 0x7F)

/-- The value of a header, if it is sent. -/
def header? (request : HttpRequest) (name : String) : Option String :=
  (request.headers.find? fun entry => entry.1 == name).map Prod.snd

/-- The request can be written on a connection: the address is that of a web server, and every
header has a value that can be sent. -/
def isSendable (request : HttpRequest) : Bool :=
  ["http", "https"].contains (String.ofList request.url.scheme) &&
    request.headers.all fun entry => isHeaderValue entry.2

end HttpRequest

end SearchRelay
