import SearchRelay.Text.Hex

/-!
Strings, names and blanks of settings files. A string is read by a machine that takes one
character at a time; strings of several lines end where three quotes come together, and up to two
more before the end belong to the text.
-/

namespace SearchRelay.Toml

/-- Reads a part of a file; gives what it stands for and the rest. -/
abbrev Reader (α : Type) := List Char → Option (α × List Char)

/-! ### Blanks, comments and ends of lines -/

def isBlank (c : Char) : Bool := c == ' ' || c == '\t'

def skipBlanks (input : List Char) : List Char := input.dropWhile isBlank

def isPlain (c : Char) : Bool := c == '\t' || (0x20 ≤ c.toNat && c.toNat != 0x7F)

/-- Skips blanks, ends of lines and comments. -/
def skipGap (comment : Bool) : List Char → Option (List Char)
  | [] => some []
  | '\r' :: '\n' :: rest => skipGap false rest
  | c :: rest =>
    if c = '\n' then skipGap false rest
    else if comment then (if isPlain c then skipGap true rest else none)
    else if c = '#' then skipGap true rest
    else if isBlank c then skipGap false rest
    else some (c :: rest)

/-- Skips what may stand between the last word of a line and its end, and the end. -/
def skipLineEnd (input : List Char) : Option (List Char) :=
  let input := skipBlanks input
  let input := match input with
    | '#' :: rest => rest.dropWhile isPlain
    | _ => input
  match input with
  | [] => some []
  | '\n' :: rest | '\r' :: '\n' :: rest => some rest
  | _ => none

/-! ### Strings -/

structure Quotation where
  mark : Char
  /-- Backslashes begin escapes. -/
  escapes : Bool
  /-- Three marks at each end, and several lines between them. -/
  long : Bool

inductive Mode where
  | plain
  | escape
  /-- An escape by number: the digits still to come, and the value of those read. -/
  | code (left value : Nat)
  /-- After a backslash at the end of a line: blanks and line ends are left out. -/
  | trim (ended : Bool)
  /-- Marks in a row. -/
  | marks (count : Nat)
  /-- After a carriage return; a line feed has to follow. -/
  | carriage (trimmed : Bool)

/-- Takes a character that is not part of anything begun before. -/
def plainStep (quotation : Quotation) (text : List Char) (c : Char) :
    Option (Mode × List Char) :=
  if c = quotation.mark then some (.marks 1, text)
  else if c = '\\' ∧ quotation.escapes then some (.escape, text)
  else if c = '\r' ∧ quotation.long then some (.carriage false, text)
  else if (c = '\n' ∧ quotation.long) ∨ isPlain c then some (.plain, c :: text)
  else none

def escaped? (c : Char) : Option Char :=
  if c = '"' ∨ c = '\\' then some c
  else if c = 'b' then some (Char.ofNat 8)
  else if c = 'f' then some (Char.ofNat 12)
  else if c = 'n' then some '\n'
  else if c = 'r' then some '\r'
  else if c = 't' then some '\t'
  else none

def escapeStep (quotation : Quotation) (text : List Char) (c : Char) :
    Option (Mode × List Char) :=
  if c = 'u' then some (.code 4 0, text)
  else if c = 'U' then some (.code 8 0, text)
  else if quotation.long ∧ (isBlank c ∨ c = '\n') then some (.trim (c == '\n'), text)
  else if quotation.long ∧ c = '\r' then some (.carriage true, text)
  else (escaped? c).map fun plain => (.plain, plain :: text)

def codeStep (left value : Nat) (text : List Char) (c : Char) : Option (Mode × List Char) :=
  (Text.hexValue? c).bind fun digit =>
    let value := value * 16 + digit
    if 1 < left then some (.code (left - 1) value, text)
    else if value.isValidChar then some (.plain, Char.ofNat value :: text)
    else none

def step (quotation : Quotation) (mode : Mode) (text : List Char) (c : Char) :
    Option (Mode × List Char) :=
  match mode with
  | .plain => plainStep quotation text c
  | .escape => escapeStep quotation text c
  | .code left value => codeStep left value text c
  | .trim ended =>
    if isBlank c then some (.trim ended, text)
    else if c = '\n' then some (.trim true, text)
    else if c = '\r' then some (.carriage true, text)
    else if ended then plainStep quotation text c
    else none
  | .marks count => plainStep quotation (List.replicate count quotation.mark ++ text) c
  | .carriage trimmed =>
    if c = '\n' then some (if trimmed then (.trim true, text) else (.plain, '\n' :: text)) else none

/-- Reads the rest of a string; `text` holds what was read, the last character first. -/
def stringFrom (quotation : Quotation) (mode : Mode) (text : List Char) : Reader (List Char) :=
  fun input =>
    let finish (count : Nat) (rest : List Char) : Option (List Char × List Char) :=
      some ((List.replicate (count - 3) quotation.mark ++ text).reverse, rest)
    match mode, input with
    | .marks count, [] => if 3 ≤ count then finish count [] else none
    | _, [] => none
    | .marks count, c :: rest =>
      if c = quotation.mark ∧ count < 5 then stringFrom quotation (.marks (count + 1)) text rest
      else if 3 ≤ count then finish count (c :: rest)
      else
        match step quotation mode text c with
        | some (mode, text) => stringFrom quotation mode text rest
        | none => none
    | mode, c :: rest =>
      match step quotation mode text c with
      | some (.marks count, text) =>
        if quotation.long then stringFrom quotation (.marks count) text rest
        else some (text.reverse, rest)
      | some (mode, text) => stringFrom quotation mode text rest
      | none => none

def dropLineFeed : List Char → List Char
  | '\n' :: rest | '\r' :: '\n' :: rest => rest
  | input => input

def shortString : Reader String
  | c :: rest =>
    if c = '"' ∨ c = '\'' then
      (stringFrom ⟨c, c == '"', false⟩ .plain [] rest).map fun (text, rest) =>
        (String.ofList text, rest)
    else none
  | [] => none

def string : Reader String
  | a :: b :: c :: rest =>
    if (a = '"' ∨ a = '\'') ∧ a = b ∧ b = c then
      (stringFrom ⟨a, a == '"', true⟩ .plain [] (dropLineFeed rest)).map fun (text, rest) =>
        (String.ofList text, rest)
    else shortString (a :: b :: c :: rest)
  | input => shortString input

/-! ### Names -/

/-- A character of a name without quotes. -/
def isNameChar (c : Char) : Bool := c.isAlphanum || c == '_' || c == '-'

def name (input : List Char) : Option (String × List Char) :=
  match input.takeWhile isNameChar with
  | [] => shortString input
  | chars => some (String.ofList chars, input.dropWhile isNameChar)

/-- Reads names with points between them; `fuel` bounds their number. -/
def names : (fuel : Nat) → Reader (List String)
  | 0, _ => none
  | fuel + 1, input => do
    let (first, rest) ← name (skipBlanks input)
    match skipBlanks rest with
    | '.' :: rest =>
      let (others, rest) ← names fuel rest
      return (first :: others, rest)
    | rest => return ([first], rest)

def path (input : List Char) : Option (List String × List Char) := names (input.length + 1) input

end SearchRelay.Toml
