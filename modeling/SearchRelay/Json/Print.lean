import SearchRelay.Json.Basic

/-!
The text of a value. The compact form has no blanks; the indented form puts every item on a line
of its own. Both escape the quote, the backslash and the control characters, and nothing else.
-/

namespace SearchRelay.Json

def hexDigit (n : Nat) : Char := Nat.digitChar n

def escapeChar (c : Char) : List Char :=
  if c = '"' then ['\\', '"']
  else if c = '\\' then ['\\', '\\']
  else if 0x20 ≤ c.toNat then [c]
  else if c = '\n' then ['\\', 'n']
  else if c = '\r' then ['\\', 'r']
  else if c = '\t' then ['\\', 't']
  else if c.toNat = 8 then ['\\', 'b']
  else if c.toNat = 12 then ['\\', 'f']
  else ['\\', 'u', '0', '0', hexDigit (c.toNat / 16), hexDigit (c.toNat % 16)]

def quote (text : List Char) : List Char := '"' :: text.flatMap escapeChar ++ ['"']

mutual

def print : Json → List Char
  | .null => ['n', 'u', 'l', 'l']
  | .bool true => ['t', 'r', 'u', 'e']
  | .bool false => ['f', 'a', 'l', 's', 'e']
  | .num value => value.text
  | .str text => quote text.toList
  | .arr [] => ['[', ']']
  | .arr (first :: rest) => '[' :: (print first ++ printItems rest)
  | .obj [] => ['\x7b', '\x7d']
  | .obj ((key, value) :: rest) =>
    '\x7b' :: (quote key.toList ++ ':' :: (print value ++ printEntries rest))

/-- The items after the first one, each behind a comma, and the closing bracket. -/
def printItems : List Json → List Char
  | [] => [']']
  | item :: rest => ',' :: (print item ++ printItems rest)

/-- The entries after the first one, each behind a comma, and the closing brace. -/
def printEntries : List (String × Json) → List Char
  | [] => ['\x7d']
  | (key, value) :: rest =>
    ',' :: (quote key.toList ++ ':' :: (print value ++ printEntries rest))

end

def render (value : Json) : String := String.ofList value.print

/-- A line break and the blanks before an item at some depth; each level is two blanks. -/
def newline (depth : Nat) : List Char := '\n' :: List.replicate (2 * depth) ' '

mutual

def indented (depth : Nat) : Json → List Char
  | .arr (first :: rest) =>
    '[' :: (newline (depth + 1) ++ indented (depth + 1) first ++ indentedItems depth rest)
  | .obj ((key, value) :: rest) =>
    '\x7b' :: (newline (depth + 1) ++ quote key.toList ++ ':' :: ' ' ::
      (indented (depth + 1) value ++ indentedEntries depth rest))
  | simple => simple.print

def indentedItems (depth : Nat) : List Json → List Char
  | [] => newline depth ++ [']']
  | item :: rest =>
    ',' :: (newline (depth + 1) ++ indented (depth + 1) item ++ indentedItems depth rest)

def indentedEntries (depth : Nat) : List (String × Json) → List Char
  | [] => newline depth ++ ['\x7d']
  | (key, value) :: rest =>
    ',' :: (newline (depth + 1) ++ quote key.toList ++ ':' :: ' ' ::
      (indented (depth + 1) value ++ indentedEntries depth rest))

end

end SearchRelay.Json
