/-!
Bytes as text. The decoder is a machine over bytes: a byte that cannot continue a character ends
it as a fault and then starts the next one, so every maximal ill-formed run is one fault.
-/

namespace SearchRelay.Text

abbrev Bytes := List UInt8

/-- A character that has begun: its bits so far, how many bytes are still to come, and the range
of the next one. -/
structure Partial where
  value : Nat
  left : Nat
  low : Nat
  high : Nat

/-- The state after a byte that begins a character: a whole character, a partial one or a fault. -/
inductive Lead where
  | whole (c : Char)
  | part (state : Partial)
  | fault

/-- Reads a first byte. The ranges leave out overlong forms, surrogates and codes that are too
large. -/
def lead (byte : Nat) : Lead :=
  if byte < 0x80 then .whole (Char.ofNat byte)
  else if byte < 0xC2 then .fault
  else if byte < 0xE0 then .part ⟨byte - 0xC0, 1, 0x80, 0xBF⟩
  else if byte < 0xF0 then
    .part ⟨byte - 0xE0, 2, if byte = 0xE0 then 0xA0 else 0x80, if byte = 0xED then 0x9F else 0xBF⟩
  else if byte < 0xF5 then
    .part ⟨byte - 0xF0, 3, if byte = 0xF0 then 0x90 else 0x80, if byte = 0xF4 then 0x8F else 0xBF⟩
  else .fault

/-- Starts a character; `done` holds the characters and faults so far, reversed. -/
def begin (done : List (Option Char)) (byte : Nat) : Option Partial × List (Option Char) :=
  match lead byte with
  | .whole c => (none, some c :: done)
  | .part state => (some state, done)
  | .fault => (none, none :: done)

def takeByte (state : Option Partial) (done : List (Option Char)) (byte : Nat) :
    Option Partial × List (Option Char) :=
  match state with
  | none => begin done byte
  | some part =>
    if part.low ≤ byte && byte ≤ part.high then
      let value := part.value * 64 + (byte - 0x80)
      if part.left ≤ 1 then (none, some (Char.ofNat value) :: done)
      else (some ⟨value, part.left - 1, 0x80, 0xBF⟩, done)
    else begin (none :: done) byte

def decodeFrom (state : Option Partial) (done : List (Option Char)) : Bytes → List (Option Char)
  | [] => (if state.isSome then none :: done else done).reverse
  | byte :: rest =>
    let (state, done) := takeByte state done byte.toNat
    decodeFrom state done rest

/-- The characters of a byte text, each fault as `none`. -/
def decode (bytes : Bytes) : List (Option Char) := decodeFrom none [] bytes

/-- The text of the bytes, if they have no fault. -/
def decode? (bytes : Bytes) : Option (List Char) :=
  let decoded := decode bytes
  if decoded.all Option.isSome then some (decoded.filterMap id) else none

def decodeLossy (bytes : Bytes) : List Char := (decode bytes).map fun c => c.getD '\uFFFD'

/-- The text of the bytes for a reader of documents. A fault becomes a text that no document may
hold outside a string, and that makes a string which holds it stand for no text. -/
def decodeDocument (bytes : Bytes) : List Char :=
  (decode bytes).flatMap fun
    | some c => [c]
    | none => ['g', '\\', 'u', 'D', '8', '0', '0', 'g']

def encode (text : List Char) : Bytes := text.flatMap String.utf8EncodeChar

def byteLength (text : List Char) : Nat := text.foldl (fun bytes c => bytes + c.utf8Size) 0

end SearchRelay.Text
