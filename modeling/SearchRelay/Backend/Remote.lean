import SearchRelay.Backend.Basic
import SearchRelay.Http.StatusCode
import SearchRelay.Settings.Cluster
import SearchRelay.Signing.Signature

/-!
The client of a cluster behind a network. All that it needs of the world is one record of
functions on the world's state, so what holds for every world holds for every network, clock and
source of credentials. A client that should sign never sends a request without a signature: it is
not built without credentials, and when these run out, nothing is sent.
-/

namespace SearchRelay

open Text (Bytes)

structure Outside (σ : Type) where
  send : HttpRequest → σ → HttpReply × σ
  /-- Seconds since the beginning of 1970. -/
  clock : σ → Int × σ
  /-- A mark that tells a request from all others. -/
  mark : σ → String × σ
  /-- Asks whoever hands out credentials. -/
  credentials : σ → Option Credentials × σ

structure Signer where
  domain : Signature.Domain
  /-- Keys that were given; without them the outside is asked. -/
  keys : Option Credentials
  holder : CredentialHolder

namespace Signer

def provider (outside : Outside σ) (keys : Option Credentials) (state : σ) :
    Option Credentials × σ :=
  match keys with
  | some keys => (some keys, state)
  | none => outside.credentials state

def service : String := "es"

/-- A signer whose provider has something to give: the keys of the settings, or else what the
outside hands out. -/
def ofSettings (outside : Outside σ) (settings : ClusterSettings) (state : σ) :
    Option Signer × σ :=
  let keys := Credentials.ofKeys? settings.accessKey settings.secretKey
  let (now, state) := outside.clock state
  let (holder, state) := CredentialHolder.resolve (provider outside keys) now state
  (holder.map fun holder => ⟨⟨settings.region, service⟩, keys, holder⟩, state)

/-- The provider has nothing to give any more. -/
def exhausted : Report := .told <| "💀 The AWS credentials dried up mid-run. " ++
  "The provider chain has nothing left to give."

def sign (outside : Outside σ) (signer : Signer) (request : HttpRequest) (state : σ) :
    Outcome HttpRequest × Signer × σ :=
  let (now, state) := outside.clock state
  let (given, holder, state) :=
    signer.holder.credentials (provider outside signer.keys) now state
  let signed := match given with
    | none => .error exhausted
    | some given => (Signature.sign signer.domain given now request).map fun headers =>
      { request with headers := request.headers ++ headers }
  (signed, { signer with holder := holder }, state)

end Signer

structure Client where
  /-- The address that every path is put behind, without slashes at its end. -/
  base : List Char
  /-- A client without a signer sends requests as they are. -/
  signer : Option Signer

namespace Client

/-! ### Building -/

def unplaced (url : String) : Report :=
  (Report.outside .address).within <|
    "💀 '" ++ url ++ "' is not a URL. The cluster has to live somewhere."

/-- Requests should be signed, and nobody has credentials. -/
def unsigned : Report := .told <|
  "💀 aws = true, but no AWS credentials could be resolved (config keys, environment, " ++
  "profile, container endpoint, instance profile all came up empty). Refusing to send " ++
  "unsigned requests to a cluster that expects signatures."

/-- The client for settings. The signer counts only if requests should be signed. -/
def build (settings : ClusterSettings) (signer : Option Signer) : Outcome Client :=
  let base := (settings.url.toList.reverse.dropWhile (· == '/')).reverse
  if (Url.ofText? settings.url.toList).isNone then .error (unplaced settings.url)
  else if !settings.signed then .ok ⟨base, none⟩
  else
    match signer with
    | none => .error unsigned
    | some signer => .ok ⟨base, some signer⟩

/-- The client for settings, with credentials from wherever there are some. -/
def ofSettings (outside : Outside σ) (settings : ClusterSettings) (state : σ) :
    Outcome Client × σ :=
  let (signer, state) :=
    if settings.signed then Signer.ofSettings outside settings state else (none, state)
  (build settings signer, state)

def isSigned (client : Client) : Bool := client.signer.isSome

/-! ### One exchange -/

def endpoint (client : Client) (path : String) : Outcome Url :=
  let joined := client.base ++ '/' :: path.toList.dropWhile (· == '/')
  match Url.ofText? joined with
  | some url => .ok url
  | none => .error <| (Report.outside .address).within <|
      "💀 '" ++ String.ofList joined ++ "' is not a URL."

/-- The body of a reply, if the request succeeded. -/
def verdict (request : HttpRequest) (reply : HttpReply) : Outcome Bytes :=
  let asked := "💀 " ++ request.method ++ " " ++ String.ofList request.url.text
  match reply with
  | .unreachable => .error <| (Report.outside .network).within <|
      asked ++ " never made it. Check connectivity. Check the cluster."
  | .cutOff status => .error <| (Report.outside .network).within <|
      asked ++ " answered " ++ StatusCode.text status ++ " and then lost the body."
  | .answered status body =>
    if StatusCode.isSuccess status then .ok body
    else .error <| .told <| asked ++ " answered " ++ StatusCode.text status ++ ": " ++
      String.ofList (Text.decodeLossy body)

def sign (outside : Outside σ) (client : Client) (request : HttpRequest) (state : σ) :
    Outcome HttpRequest × Client × σ :=
  match client.signer with
  | none => (.ok request, client, state)
  | some signer =>
    let (signed, signer, state) := signer.sign outside request state
    (signed, { client with signer := some signer }, state)

def exchange (outside : Outside σ) (method path contentType : String) (body : Bytes)
    (client : Client) (state : σ) : Outcome Bytes × Client × σ :=
  match client.endpoint path with
  | .error report => (.error report, client, state)
  | .ok url =>
    let (mark, state) := outside.mark state
    let headers := [("content-type", contentType), ("x-opaque-id", mark)]
    match client.sign outside ⟨method, url, headers, body⟩ state with
    | (.error report, client, state) => (.error report, client, state)
    | (.ok request, client, state) =>
      let (reply, state) :=
        if request.isSendable then outside.send request state else (.unreachable, state)
      (verdict request reply, client, state)

/-! ### Requests to the cluster -/

def jsonType : String := "application/json"

def linesType : String := "application/x-ndjson"

def read (decoder : Json.Decoder α) (body : Bytes) : Outcome α :=
  match Json.decode? decoder (Text.decodeDocument body) with
  | some value => .ok value
  | none => .error <| (Report.outside .document).within
      "💀 The cluster answered with something that is not the JSON we expected."

def bodyOf (value : Json) : Bytes := Text.encode value.print

def get (outside : Outside σ) (path : String) (client : Client) (state : σ) :
    Outcome Json × Client × σ :=
  let (body, client, state) := client.exchange outside "GET" path jsonType [] state
  (body.bind (read .value), client, state)

def bulk (outside : Outside σ) (body : String) (client : Client) (state : σ) :
    Outcome BulkResponse × Client × σ :=
  let (body, client, state) :=
    client.exchange outside "POST" "_bulk" linesType (Text.encode body.toList) state
  (body.bind fun body => BulkResponse.ofBody (Text.decodeDocument body), client, state)

def readAnswer (body : Bytes) : Outcome SearchAnswer :=
  match SearchAnswer.ofBody? (Text.decodeDocument body) with
  | some answer => .ok answer
  | none => .error <| (Report.outside .document).within
      "💀 The _search response was not the JSON we were promised."

def search (outside : Outside σ) (request : SearchRequest) (client : Client) (state : σ) :
    Outcome SearchAnswer × Client × σ :=
  let (body, client, state) := client.exchange outside "POST" (request.index ++ "/_search")
    jsonType (bodyOf request.searchBody) state
  (body.bind readAnswer, client, state)

def countDecoder : Json.Decoder Nat :=
  .record ["count"] fun members => members.required "count" .word

def count (outside : Outside σ) (request : SearchRequest) (client : Client) (state : σ) :
    Outcome Nat × Client × σ :=
  let (body, client, state) := client.exchange outside "POST" (request.index ++ "/_count")
    jsonType (bodyOf request.countBody) state
  (body.bind (read countDecoder), client, state)

def backend (outside : Outside σ) : Backend (Client × σ) where
  bulk := fun body (client, state) => client.bulk outside body state
  search := fun request (client, state) => client.search outside request state
  count := fun request (client, state) => client.count outside request state

end Client

end SearchRelay
