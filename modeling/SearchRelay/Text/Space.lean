/-!
Blank characters and the words between them. A word is a nonempty run of characters that are not
blank, so no word is empty and no word holds a blank.
-/

namespace SearchRelay.Text

/-- The characters with the Unicode property `White_Space`. -/
def isSpace (c : Char) : Bool :=
  let code := c.toNat
  (9 ≤ code && code ≤ 13) || code == 0x20 || code == 0x85 || code == 0xA0 || code == 0x1680 ||
    (0x2000 ≤ code && code ≤ 0x200A) || code == 0x2028 || code == 0x2029 || code == 0x202F ||
    code == 0x205F || code == 0x3000

/-- The runs of characters between blanks, from left to right. -/
def words (text : List Char) : List (List Char) :=
  (text.splitOnP isSpace).filter fun run => !run.isEmpty

/-- A text without the blanks at its two ends. -/
def trim (text : List Char) : List Char :=
  ((text.dropWhile isSpace).reverse.dropWhile isSpace).reverse

def isBlank (text : List Char) : Bool := text.all isSpace

/-- A text that survives being one word of a line: it is nonempty and holds no blank. -/
def isWord (text : List Char) : Bool := !text.isEmpty && text.all fun c => !isSpace c

theorem isWord_of_mem_words {text word : List Char} (member : word ∈ words text) :
    word ≠ [] ∧ word ∈ text.splitOnP isSpace := by
  simpa [words, and_comm] using member

end SearchRelay.Text
