import SearchRelay.Json.Token
import SearchRelay.Json.Number

/-!
The grammar of the data format, without a judgement on values: numerals are kept as written,
duplicate keys stay, strings may stand for no text, and nesting has no bound. Parts of a document
that nobody asks for have to obey this grammar and nothing more.
-/

namespace SearchRelay.Json

inductive Tree where
  | null
  | bool (value : Bool)
  | numeral (value : Numeral)
  | string (text : Option String)
  | array (items : List Tree)
  | object (entries : List (Option String × Tree))
deriving Inhabited

namespace Tree

/-- A container that is still open, with what it holds so far in reverse order. -/
inductive Frame where
  | array (items : List Tree)
  | object (entries : List (Option String × Tree))
  /-- An object inside which the value of a key is being read. -/
  | member (entries : List (Option String × Tree)) (key : Option String)

inductive Expected where
  | value
  /-- A value, or the end of an array that has no items yet. -/
  | firstItem
  /-- A key, or the end of an object that has no entries yet. -/
  | firstKey
  | key
  | colon (key : Option String)
  /-- A comma, or the end of the innermost container. -/
  | separator
  /-- Nothing; the whole document is read. -/
  | finished (tree : Tree)

structure Reading where
  frames : List Frame
  expected : Expected

namespace Reading

def initial : Reading := ⟨[], .value⟩

def complete (frames : List Frame) (tree : Tree) : Option Reading :=
  match frames with
  | [] => some ⟨[], .finished tree⟩
  | .array items :: rest => some ⟨.array (tree :: items) :: rest, .separator⟩
  | .member entries key :: rest => some ⟨.object ((key, tree) :: entries) :: rest, .separator⟩
  | .object _ :: _ => none

def textOf (text : Option (List Char)) : Option String := text.map String.ofList

def openValue (frames : List Frame) : Token → Option Reading
  | .null => complete frames .null
  | .bool value => complete frames (.bool value)
  | .numeral text => (Numeral.ofText? text).bind fun value => complete frames (.numeral value)
  | .string text => complete frames (.string (textOf text))
  | .openArray => some ⟨.array [] :: frames, .firstItem⟩
  | .openObject => some ⟨.object [] :: frames, .firstKey⟩
  | _ => none

def close (frames : List Frame) (token : Token) : Option Reading :=
  match frames, token with
  | .array items :: rest, .closeArray => complete rest (.array items.reverse)
  | .object entries :: rest, .closeObject => complete rest (.object entries.reverse)
  | _, _ => none

def step (reading : Reading) (token : Token) : Option Reading :=
  match reading.expected with
  | .value => openValue reading.frames token
  | .firstItem =>
    if token = .closeArray then close reading.frames token else openValue reading.frames token
  | .firstKey =>
    match token with
    | .string text => some ⟨reading.frames, .colon (textOf text)⟩
    | _ => close reading.frames token
  | .key =>
    match token with
    | .string text => some ⟨reading.frames, .colon (textOf text)⟩
    | _ => none
  | .colon key =>
    match reading.frames, token with
    | .object entries :: rest, .colon => some ⟨.member entries key :: rest, .value⟩
    | _, _ => none
  | .separator =>
    match reading.frames, token with
    | .array _ :: _, .comma => some ⟨reading.frames, .value⟩
    | .object _ :: _, .comma => some ⟨reading.frames, .key⟩
    | _, _ => close reading.frames token
  | .finished _ => none

/-- Runs over the tokens of a document; the result is there when the document is whole. -/
def run (reading : Reading) : List Token → Option Tree
  | [] => match reading.expected with
    | .finished tree => some tree
    | _ => none
  | token :: rest =>
    match reading.step token with
    | some reading => run reading rest
    | none => none

end Reading

def ofText? (text : List Char) : Option Tree := (tokens? text).bind (Reading.run .initial)

end Tree

end SearchRelay.Json
