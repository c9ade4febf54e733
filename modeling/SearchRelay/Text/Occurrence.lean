/-!
Occurrences of one text inside another. Positions count characters, and a search never looks
behind the place where it starts.
-/

namespace SearchRelay.Text

/-- Case folding of the letters `A` to `Z`; every other character stays. -/
def fold (text : List Char) : List Char := text.map Char.toLower

def occurs (needle : List Char) : List Char → Bool
  | [] => needle.isEmpty
  | c :: rest => needle.isPrefixOf (c :: rest) || occurs needle rest

/-- The text before the first occurrence of a needle, reversed onto `before`, and the text from
that occurrence on. -/
def seek (needle : List Char) : List Char → List Char → Option (List Char × List Char)
  | before, [] => if needle.isEmpty then some (before.reverse, []) else none
  | before, c :: rest =>
    if needle.isPrefixOf (c :: rest) then some (before.reverse, c :: rest)
    else seek needle (c :: before) rest

/-- Cuts a text at the first occurrence of a needle: what precedes it and what follows it. -/
def cut? (needle text : List Char) : Option (List Char × List Char) :=
  (seek needle [] text).map fun (before, found) => (before, found.drop needle.length)

def replaceChar (old : Char) (new : List Char) (text : List Char) : List Char :=
  text.flatMap fun c => if c = old then new else [c]

end SearchRelay.Text
