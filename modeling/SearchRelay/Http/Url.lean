import SearchRelay.Http.Host

/-!
Absolute addresses of resources. Reading an address puts it into one form: the scheme and the host
in small letters, the usual port left out, dots in the path followed, and every character that
does not belong into its part written as bytes in percent form. What is written so is read as
itself.
-/

namespace SearchRelay

structure Authority where
  user : List Char
  password : List Char
  host : List Char
  /-- A port other than the usual one of the scheme. -/
  port : Option Nat
deriving DecidableEq, Repr

/-- An absolute address, every part in its written form. -/
structure Url where
  scheme : List Char
  authority : Option Authority
  path : List Char
  query : Option (List Char)
  fragment : Option (List Char)
deriving DecidableEq, Repr

namespace Url

/-! ### Characters -/

/-- Writes controls, letters beyond the common ones and `reserved` characters in percent form. -/
def encode (reserved : String) (text : List Char) : List Char :=
  Text.percentEncode
    (fun c => c.toNat < 0x20 || 0x7E < c.toNat || reserved.toList.contains c) text

/-- What stands for something else in a fragment. -/
def inFragment : String := " \"<>\x60"

def inPath : String := inFragment ++ "#?\x7b\x7d"

def inUser : String := inPath ++ "/:;=@[\\]^|"

def inQuery : String := " \"#<>"

/-! ### Schemes -/

def usualPort? (scheme : List Char) : Option Nat :=
  match String.ofList scheme with
  | "http" | "ws" => some 80
  | "https" | "wss" => some 443
  | "ftp" => some 21
  | _ => none

/-- Addresses of files on some machine, mostly this one. -/
def isFile (scheme : List Char) : Bool := scheme == ['f', 'i', 'l', 'e']

/-- A scheme with a common way to write addresses: a backslash counts as a slash in it. -/
def isCommon (scheme : List Char) : Bool := (usualPort? scheme).isSome || isFile scheme

/-- Cuts off the scheme, which ends at the first colon. -/
def scheme? (text : List Char) : Option (List Char × List Char) :=
  let isPart (c : Char) : Bool := c.isAlphanum || c == '+' || c == '-' || c == '.'
  match text.takeWhile isPart, text.dropWhile isPart with
  | first :: others, ':' :: rest =>
    if first.isAlpha then some ((first :: others).map Char.toLower, rest) else none
  | _, _ => none

/-! ### Paths -/

def isHere (segment : List Char) : Bool :=
  [".", "%2e"].contains (String.ofList (segment.map Char.toLower))

def isUp (segment : List Char) : Bool :=
  ["..", ".%2e", "%2e.", "%2e%2e"].contains (String.ofList (segment.map Char.toLower))

/-- Follows the dots among segments; `done` holds those before, the last one first. -/
def follow (done : List (List Char)) : List (List Char) → List (List Char)
  | [] => done.reverse
  | segment :: rest =>
    let dots := isHere segment || isUp segment
    let done := if isUp segment then done.tail else done
    let done := if !dots then encode inPath segment :: done
      else if rest.isEmpty then [] :: done
      else done
    follow done rest

def isSlash (common : Bool) (c : Char) : Bool := c == '/' || (common && c == '\\')

/-- The path that segments lead to. The path of a file does not begin with empty segments. -/
def pathOf (scheme : List Char) (text : List Char) : List Char :=
  let segments := follow [] (text.splitOnP (isSlash (isCommon scheme)))
  if isFile scheme then
    match segments.dropWhile List.isEmpty with
    | [] => ['/']
    | segments => segments.flatMap ('/' :: ·)
  else segments.flatMap ('/' :: ·)

/-! ### Authorities -/

/-- Cuts the port off a host; a colon in brackets belongs to the host. -/
def cutPort (inside : Bool) (host : List Char) : List Char → List Char × Option (List Char)
  | [] => (host.reverse, none)
  | c :: rest =>
    if c = ':' && !inside then (host.reverse, some rest)
    else cutPort (if c = '[' then true else if c = ']' then false else inside) (c :: host) rest

/-- A port, unless it is the usual one. -/
def port? (scheme : List Char) (digits : List Char) : Option (Option Nat) :=
  let port := digits.foldl (fun value c => value * 10 + Text.digitValue c) 0
  if !digits.all Char.isDigit || 65535 < port then none
  else if digits.isEmpty || usualPort? scheme = some port then some none
  else some (some port)

def host? (scheme : List Char) (text : List Char) : Option (List Char) :=
  if isCommon scheme ∨ text.head? = some '[' then Host.parse? text
  else if text.any Host.isForbidden then none
  else some (encode "" text)

/-- The parts of an authority around its last `@`, if it has one. -/
def cutUser (text : List Char) : Option (List Char) × List Char :=
  match (text.splitOnP (· == '@')).reverse with
  | place :: user :: before => (some (['@'].intercalate (user :: before).reverse), place)
  | _ => (none, text)

/-- The authority of an address that is not a file's. -/
def authority? (scheme : List Char) (text : List Char) : Option Authority := do
  let (given, place) := cutUser text
  let (name, digits) := cutPort false [] place
  let port ← port? scheme (digits.getD [])
  if name.isEmpty then
    if isCommon scheme ∨ given.isSome ∨ digits.isSome then none else some ⟨[], [], [], none⟩
  else
    let info := given.getD []
    return { user := encode inUser (info.takeWhile (· ≠ ':')),
             password := encode inUser ((info.dropWhile (· ≠ ':')).drop 1),
             host := ← host? scheme name, port := port }

/-- The authority of a file's address. The name of this machine goes without saying. -/
def fileAuthority? (text : List Char) : Option Authority :=
  if text.isEmpty then some ⟨[], [], [], none⟩
  else (Host.parse? text).map fun host =>
    ⟨[], [], if host = "localhost".toList then [] else host, none⟩

/-- The authority and the path of an address, from what follows the scheme up to the query. -/
def place? (scheme : List Char) (text : List Char) : Option (Option Authority × List Char) :=
  let slash := isSlash (isCommon scheme)
  let split (text : List Char) : List Char × List Char :=
    (text.takeWhile (!slash ·), (text.dropWhile (!slash ·)).drop 1)
  if isFile scheme then
    match text with
    | a :: b :: rest =>
      if slash a && slash b then
        (fileAuthority? (split rest).1).map fun authority => (some authority, pathOf scheme (split rest).2)
      else some (some ⟨[], [], [], none⟩, pathOf scheme (if slash a then b :: rest else text))
    | _ => some (some ⟨[], [], [], none⟩, pathOf scheme (text.dropWhile slash))
  else if isCommon scheme then
    let rest := text.dropWhile slash
    (authority? scheme (split rest).1).map fun authority =>
      (some authority, pathOf scheme (split rest).2)
  else
    match text with
    | '/' :: '/' :: rest =>
      (authority? scheme (split rest).1).map fun authority =>
        (some authority, if rest.contains '/' then pathOf scheme (split rest).2 else [])
    | '/' :: rest => some (none, pathOf scheme rest)
    | _ => some (none, encode "" text)

/-! ### Reading and writing -/

def cutAt (mark : Char) (text : List Char) : List Char × Option (List Char) :=
  (text.takeWhile (· ≠ mark), match text.dropWhile (· ≠ mark) with
    | [] => none
    | _ :: rest => some rest)

/-- Leaves out what a text of an address may have around it and between its lines. -/
def tidy (text : List Char) : List Char :=
  let isEdge (c : Char) : Bool := c.toNat ≤ 0x20
  let inner := ((text.dropWhile isEdge).reverse.dropWhile isEdge).reverse
  inner.filter fun c => !(c == '\t' || c == '\n' || c == '\r')

def ofText? (text : List Char) : Option Url := do
  let (scheme, rest) ← scheme? (tidy text)
  let (rest, fragment) := cutAt '#' rest
  let (rest, query) := cutAt '?' rest
  let (authority, path) ← place? scheme rest
  let reserved := if isCommon scheme then inQuery ++ "'" else inQuery
  return ⟨scheme, authority, path, query.map (encode reserved), fragment.map (encode inFragment)⟩

end Url

def Authority.hostText (authority : Authority) : List Char :=
  authority.host ++ match authority.port with
    | some port => ':' :: Text.decimal port
    | none => []

def Authority.text (authority : Authority) : List Char :=
  let user := authority.user ++
    if authority.password.isEmpty then [] else ':' :: authority.password
  (if user.isEmpty then [] else user ++ ['@']) ++ authority.hostText

namespace Url

def target (url : Url) : List Char :=
  (if url.path.isEmpty then ['/'] else url.path) ++ (url.query.map ('?' :: ·)).getD []

/-- The host with its port; empty if there is none. -/
def hostText (url : Url) : List Char := (url.authority.map Authority.hostText).getD []

def text (url : Url) : List Char :=
  let place := match url.authority with
    | some authority => '/' :: '/' :: authority.text ++ url.path
    | none => (if ['/', '/'].isPrefixOf url.path then ['/', '.'] else []) ++ url.path
  url.scheme ++ ':' :: place ++ (url.query.map ('?' :: ·)).getD [] ++
    (url.fragment.map ('#' :: ·)).getD []

end Url

end SearchRelay
