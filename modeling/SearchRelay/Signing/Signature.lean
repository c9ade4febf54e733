import SearchRelay.Http.Exchange
import SearchRelay.Report
import SearchRelay.Signing.Credentials
import SearchRelay.Signing.Sha256
import SearchRelay.Text.Percent
import SearchRelay.Time.Instant

/-!
Signatures of requests. A request is written in one canonical form; the hash of that form, the day
and the service are signed with a key that is derived from the secret. Whoever knows the secret
can check who sent the request and that neither its body nor a signed header was changed.
-/

namespace SearchRelay.Signature

open Text (Bytes)

structure Domain where
  region : String
  service : String
deriving DecidableEq, Repr

/-! ### Headers -/

/-- Headers that are never signed, because others may add or change them on the way. -/
def unsigned : List String :=
  ["authorization", "user-agent", "x-amzn-trace-id", "transfer-encoding"]

def isNameChar (c : Char) : Bool := c.isAlphanum || "!#$%&'*+-.^_\x60|~".toList.contains c

/-- The name of a header in small letters, if it is one. -/
def headerName? (name : String) : Option String :=
  let name := name.toLower
  if !name.isEmpty && name.toList.all isNameChar then some name else none

def squeeze : List Char → List Char
  | ' ' :: ' ' :: rest => squeeze (' ' :: rest)
  | c :: rest => c :: squeeze rest
  | [] => []

/-- A value without blanks around it and with single blanks inside. -/
def headerValue? (value : String) : Option String :=
  let inner := ((value.toList.dropWhile (· == ' ')).reverse.dropWhile (· == ' ')).reverse
  let value := String.ofList (squeeze inner)
  if HttpRequest.isHeaderValue value then some value else none

abbrev Headers := List (String × String)

/-- Sets a header; earlier values go. -/
def setHeader (headers : Headers) (name value : String) : Headers :=
  headers.filter (fun entry => entry.1 != name) ++ [(name, value)]

def canonical? (headers : Headers) : Option Headers :=
  headers.mapM fun (name, value) => do return (← headerName? name, ← headerValue? value)

/-- The signed headers by name; several values of one name are joined. -/
def signedHeaders (headers : Headers) : Headers :=
  let names := ((headers.map Prod.fst).filter (!unsigned.contains ·)).eraseDups.mergeSort (· ≤ ·)
  names.map fun name =>
    (name, ",".intercalate ((headers.filter fun entry => entry.1 == name).map Prod.snd))

/-! ### The canonical form -/

def isUnreserved (c : Char) : Bool := c.isAlphanum || "-._~".toList.contains c

/-- The path with dots and empty segments followed, every special character encoded once more. -/
def canonicalPath (path : List Char) : List Char :=
  let follow (done : List (List Char)) (segment : List Char) : List (List Char) :=
    if segment.isEmpty ∨ segment = ['.'] then done
    else if segment = ['.', '.'] then done.tail
    else segment :: done
  let segments := ((path.splitOnP (· == '/')).foldl follow []).reverse
  let plain := segments.flatMap ('/' :: ·)
  let plain := if plain.isEmpty ∨ path.getLast? = some '/' then plain ++ ['/'] else plain
  Text.percentEncode (fun c => !(isUnreserved c || c == '/')) plain

def canonicalQuery (query : List Char) : List Char :=
  let part (text : List Char) : String :=
    let plain := text.map fun c => if c = '+' then ' ' else c
    String.ofList <| Text.percentEncode (!isUnreserved ·) <|
      Text.decodeLossy (Text.percentDecode plain)
  let pairs := ((query.splitOnP (· == '&')).filter (!·.isEmpty)).map fun pair =>
    part (pair.takeWhile (· ≠ '=')) ++ "=" ++ part ((pair.dropWhile (· ≠ '=')).drop 1)
  ("&".intercalate (pairs.mergeSort (· ≤ ·))).toList

def nameList (headers : Headers) : String :=
  ";".intercalate ((signedHeaders headers).map Prod.fst)

def canonicalText (request : HttpRequest) (headers : Headers) (bodyHash : String) : String :=
  "\n".intercalate [request.method, String.ofList (canonicalPath request.url.path),
    String.ofList (canonicalQuery (request.url.query.getD [])),
    String.join ((signedHeaders headers).map fun (name, value) => name ++ ":" ++ value ++ "\n"),
    nameList headers, bodyHash]

/-! ### Signing -/

def timeText (now : Int) : String :=
  String.ofList ((Instant.ofSeconds now).clockText.filter (fun c => c != '-' && c != ':') ++ ['Z'])

/-- The day, the place and the use of a signature. -/
def scopeText (domain : Domain) (day : String) : String :=
  "/".intercalate [day, domain.region, domain.service, "aws4_request"]

def bytesOf (text : String) : Bytes := Text.encode text.toList

def hashText (bytes : Bytes) : String := String.ofList (Text.hex bytes)

/-- The key of a secret for one day, region and service. -/
def signingKey (domain : Domain) (secret day : String) : Bytes :=
  [day, domain.region, domain.service, "aws4_request"].foldl
    (fun key part => Sha256.keyed key (bytesOf part)) (bytesOf ("AWS4" ++ secret))

/-- The address is not one of a host that can check a signature. -/
def unsignable : Report :=
  (Report.outside .signing).within "💀 This request cannot be signed. Odd headers, probably."

def refused : Report := (Report.outside .signing).within "💀 SigV4 refused to sign the request."

/-- The headers that are to be signed: those of the request, the host, the time, the token and the
hash of the body. -/
def headersToSign? (request : HttpRequest) (credentials : Credentials) (time bodyHash : String) :
    Option Headers := do
  let headers ← canonical? request.headers
  let headers := if (headers.lookup "host").isSome then headers
    else headers ++ [("host", String.ofList request.url.hostText)]
  let headers := setHeader headers "x-amz-date" time
  let headers ← match credentials.token with
    | none => some headers
    | some token =>
      if HttpRequest.isHeaderValue token then
        some (setHeader headers "x-amz-security-token" token)
      else none
  return setHeader headers "x-amz-content-sha256" bodyHash

def sign (domain : Domain) (credentials : Credentials) (now : Int) (request : HttpRequest) :
    Outcome Headers :=
  let time := timeText now
  let day := String.ofList (time.toList.takeWhile (· != 'T'))
  let bodyHash := hashText (Sha256.digest request.body)
  if request.url.hostText.isEmpty then .error unsignable
  else
    match headersToSign? request credentials time bodyHash with
    | none => .error refused
    | some headers =>
      let scope := scopeText domain day
      let form := hashText (Sha256.digest (bytesOf (canonicalText request headers bodyHash)))
      let text := "\n".intercalate ["AWS4-HMAC-SHA256", time, scope, form]
      let signature := hashText
        (Sha256.keyed (signingKey domain credentials.secret day) (bytesOf text))
      .ok <| [("x-amz-date", time),
          ("authorization", "AWS4-HMAC-SHA256 Credential=" ++ credentials.key ++ "/" ++ scope ++
            ", SignedHeaders=" ++ nameList headers ++ ", Signature=" ++ signature),
          ("x-amz-content-sha256", bodyHash)] ++
        (credentials.token.map fun token => ("x-amz-security-token", token)).toList

end SearchRelay.Signature
