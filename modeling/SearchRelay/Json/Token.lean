import SearchRelay.Text.Hex

/-!
Tokens of the data format. The scanner is a machine that takes one character at a time; numerals
and words end where a character that cannot belong to them comes, and are judged there.
-/

namespace SearchRelay.Json

/-- A token. A string that stands for no text, because an escape in it is half of a surrogate
pair, is `none`: it may be skipped but not read. -/
inductive Token where
  | openArray
  | closeArray
  | openObject
  | closeObject
  | comma
  | colon
  | null
  | bool (value : Bool)
  | numeral (text : List Char)
  | string (text : Option (List Char))
deriving DecidableEq, Repr

/-- A string that is being read: its characters in reverse order, the first half of a surrogate
pair that waits for the second one, and whether it stands for a text so far. -/
structure Quoted where
  chars : List Char
  half : Option Nat
  sound : Bool
deriving DecidableEq, Repr

namespace Quoted

def empty : Quoted := ⟨[], none, true⟩

/-- Adds a character that was not written as a code unit; a waiting half stays alone. -/
def push (quoted : Quoted) (c : Char) : Quoted :=
  ⟨c :: quoted.chars, none, quoted.sound && quoted.half.isNone⟩

def pushUnit (quoted : Quoted) (unit : Nat) : Quoted :=
  match quoted.half with
  | some first =>
    if 0xDC00 ≤ unit && unit ≤ 0xDFFF then
      let code := 0x10000 + (first - 0xD800) * 0x400 + (unit - 0xDC00)
      ⟨Char.ofNat code :: quoted.chars, none, quoted.sound⟩
    else { quoted with half := none, sound := false }
  | none =>
    if 0xD800 ≤ unit && unit ≤ 0xDBFF then { quoted with half := some unit }
    else if 0xDC00 ≤ unit && unit ≤ 0xDFFF then { quoted with sound := false }
    else { quoted with chars := Char.ofNat unit :: quoted.chars }

def finish (quoted : Quoted) : Option (List Char) :=
  if quoted.sound && quoted.half.isNone then some quoted.chars.reverse else none

end Quoted

inductive Scan where
  | between
  | string (quoted : Quoted)
  | escape (quoted : Quoted)
  /-- Inside `\u`, with the number of digits still to come and the value of those read. -/
  | unit (quoted : Quoted) (left : Nat) (value : Nat)
  | word (chars : List Char)
  | numeral (chars : List Char)
deriving DecidableEq, Repr

def Token.ofWord? (word : List Char) : Option Token :=
  if word = ['n', 'u', 'l', 'l'] then some .null
  else if word = ['t', 'r', 'u', 'e'] then some (.bool true)
  else if word = ['f', 'a', 'l', 's', 'e'] then some (.bool false)
  else none

def isNumeralChar (c : Char) : Bool :=
  c.isDigit || c == '-' || c == '+' || c == '.' || c == 'e' || c == 'E'

def isBlank (c : Char) : Bool := c == ' ' || c == '\n' || c == '\t' || c == '\r'

def escaped? (c : Char) : Option Char :=
  if c = '"' || c = '\\' || c = '/' then some c
  else if c = 'b' then some (Char.ofNat 8)
  else if c = 'f' then some (Char.ofNat 12)
  else if c = 'n' then some '\n'
  else if c = 'r' then some '\r'
  else if c = 't' then some '\t'
  else none

namespace Scan

/-- The first character of a token, or a blank. `done` holds the tokens so far, reversed. -/
def start (done : List Token) (c : Char) : Option (Scan × List Token) :=
  if isBlank c then some (.between, done)
  else if c = '"' then some (.string .empty, done)
  else if c = '[' then some (.between, .openArray :: done)
  else if c = ']' then some (.between, .closeArray :: done)
  else if c = '\x7b' then some (.between, .openObject :: done)
  else if c = '\x7d' then some (.between, .closeObject :: done)
  else if c = ',' then some (.between, .comma :: done)
  else if c = ':' then some (.between, .colon :: done)
  else if c.isDigit || c = '-' then some (.numeral [c], done)
  else if c.isLower then some (.word [c], done)
  else none

def step (scan : Scan) (done : List Token) (c : Char) : Option (Scan × List Token) :=
  match scan with
  | .between => start done c
  | .string quoted =>
    if c = '"' then some (.between, .string quoted.finish :: done)
    else if c = '\\' then some (.escape quoted, done)
    else if c.toNat < 0x20 then none
    else some (.string (quoted.push c), done)
  | .escape quoted =>
    if c = 'u' then some (.unit quoted 4 0, done)
    else (escaped? c).map fun plain => (.string (quoted.push plain), done)
  | .unit quoted left value =>
    (Text.hexValue? c).map fun digit =>
      let value := value * 16 + digit
      if left ≤ 1 then (.string (quoted.pushUnit value), done)
      else (.unit quoted (left - 1) value, done)
  | .word chars =>
    if c.isAlphanum then some (.word (c :: chars), done)
    else (Token.ofWord? chars.reverse).bind fun token => start (token :: done) c
  | .numeral chars =>
    if isNumeralChar c then some (.numeral (c :: chars), done)
    else start (.numeral chars.reverse :: done) c

def finish (scan : Scan) (done : List Token) : Option (List Token) :=
  match scan with
  | .between => some done.reverse
  | .word chars => (Token.ofWord? chars.reverse).map fun token => (token :: done).reverse
  | .numeral chars => some (Token.numeral chars.reverse :: done).reverse
  | _ => none

def run (scan : Scan) (done : List Token) : List Char → Option (List Token)
  | [] => scan.finish done
  | c :: rest =>
    match scan.step done c with
    | some (scan, done) => run scan done rest
    | none => none

end Scan

def tokens? (text : List Char) : Option (List Token) := Scan.run .between [] text

end SearchRelay.Json
