/-!
Lines. A line ends with its line feed; the last one may lack it. Joining the lines gives the text
back, and the text of a line drops the line feed and one carriage return before it.
-/

namespace SearchRelay.Text

/-- Splits after every `feed`; `pending` is the line read so far, reversed, and `done` holds the
finished lines, reversed. -/
def splitLines [DecidableEq α] (feed : α) : List α → List (List α) → List α → List (List α)
  | [], done, [] => done.reverse
  | pending, done, [] => (pending.reverse :: done).reverse
  | pending, done, c :: rest =>
    if c = feed then splitLines feed [] ((c :: pending).reverse :: done) rest
    else splitLines feed (c :: pending) done rest

/-- The lines of a text with their line feeds; an empty text has none. -/
def wholeLines (text : List Char) : List (List Char) := splitLines '\n' [] [] text

/-- A line without its line feed and without the carriage return before it. -/
def dropLineEnd (line : List Char) : List Char :=
  match line.reverse with
  | '\n' :: '\r' :: rest => rest.reverse
  | '\n' :: rest => rest.reverse
  | _ => line

/-- The lines of a text without their endings. -/
def lines (text : List Char) : List (List Char) := (wholeLines text).map dropLineEnd

end SearchRelay.Text
