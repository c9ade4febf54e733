import SearchRelay.Query.Request
import SearchRelay.Text.Utf8

/-!
Matches in a text, as runs of text that are marked or not. Runs are read from a text with marks in
it, written as safe markup, or made from the words of a query. Leaving the marks out gives the
plain text back.
-/

namespace SearchRelay

theorem Text.seek_eq {needle before text left right : List Char}
    (found : Text.seek needle before text = some (left, right)) :
    left ++ right = before.reverse ++ text ∧ needle <+: right := by
  fun_induction Text.seek needle before text with
  | case1 before empty => simp_all
  | case2 => simp at found
  | case3 before c rest here => simp_all
  | case4 before c rest _ ih => simpa using ih found

theorem Text.cut?_eq {needle text before after : List Char}
    (found : Text.cut? needle text = some (before, after)) : text = before ++ needle ++ after := by
  simp only [Text.cut?, Option.map_eq_some_iff, Prod.mk.injEq, Prod.exists] at found
  obtain ⟨left, right, sought, rfl, rfl⟩ := found
  obtain ⟨whole, rest, rfl⟩ := Text.seek_eq sought
  simpa using whole.symm

structure Run where
  marked : Bool
  text : List Char
deriving DecidableEq, Repr

namespace Run

def plain (text : List Char) : Run := ⟨false, text⟩
def mark (text : List Char) : Run := ⟨true, text⟩

end Run

structure Highlighted where
  runs : List Run
deriving DecidableEq, Repr

namespace Highlighted

theorem startMark_length : startMark.length = 20 := by decide
theorem endMark_length : endMark.length = 20 := by decide

/-- A text without the marks that end a match. -/
def dropEnds (text : List Char) : List Char :=
  match _found : Text.cut? endMark text with
  | none => text
  | some (before, after) => before ++ dropEnds after
termination_by text.length
decreasing_by
  have := congrArg List.length (Text.cut?_eq _found)
  simp [endMark_length] at this
  omega

/-- The runs of a text with marks. A match that nothing ends goes on to the end of the text, and a
mark that ends no match is left out. -/
def runsOf (text : List Char) : List Run :=
  match _found : Text.cut? startMark text with
  | none => [.plain (dropEnds text)]
  | some (before, inner) =>
    match _ended : Text.cut? endMark inner with
    | none => [.plain (dropEnds before), .mark inner]
    | some (body, rest) => .plain (dropEnds before) :: .mark body :: runsOf rest
termination_by text.length
decreasing_by
  have outer := congrArg List.length (Text.cut?_eq _found)
  have inside := congrArg List.length (Text.cut?_eq _ended)
  simp [startMark_length, endMark_length] at outer inside
  omega

def parse (text : List Char) : Highlighted := ⟨runsOf text⟩

/-- The text without marks. -/
def plain (highlighted : Highlighted) : List Char := highlighted.runs.flatMap Run.text

/-- The places of the nonempty matches in the plain text, in bytes, from an offset on. -/
def spansFrom (offset : Nat) (done : List (Nat × Nat)) : List Run → List (Nat × Nat)
  | [] => done.reverse
  | run :: rest =>
    let next := offset + Text.byteLength run.text
    if run.marked && !run.text.isEmpty then spansFrom next ((offset, next) :: done) rest
    else spansFrom next done rest

/-- The places of the nonempty matches: where each begins and ends, in bytes. -/
def spans (highlighted : Highlighted) : List (Nat × Nat) := spansFrom 0 [] highlighted.runs

def escapeChar (c : Char) : List Char :=
  if c = '&' then "&amp;".toList
  else if c = '<' then "&lt;".toList
  else if c = '>' then "&gt;".toList
  else if c = '"' then "&quot;".toList
  else if c = '\'' then "&#39;".toList
  else [c]

def escape (text : List Char) : List Char := text.flatMap escapeChar

def openTag : List Char := "<span class=\"gl-text-gray-900 gl-font-weight-bold\">".toList
def closeTag : List Char := "</span>".toList

def runMarkup (run : Run) : List Char :=
  if run.marked && !run.text.isEmpty then openTag ++ escape run.text ++ closeTag
  else escape run.text

def toMarkup (highlighted : Highlighted) : List Char := highlighted.runs.flatMap runMarkup

/-- For each character whether it lies in an occurrence of a word. Occurrences are taken from left
to right and do not overlap; `left` characters still belong to the last one. -/
def coverage (word : List Char) : Nat → List Bool → List Char → List Bool
  | _, done, [] => done.reverse
  | left + 1, done, _ :: rest => coverage word left (true :: done) rest
  | 0, done, c :: rest =>
    if word.isPrefixOf (c :: rest) then coverage word (word.length - 1) (true :: done) rest
    else coverage word 0 (false :: done) rest

/-- For each character of a text whether it lies in an occurrence of one of the words. Case of the
text does not count. -/
def covered (words : List (List Char)) (text : List Char) : List Bool :=
  let folded := Text.fold text
  let words := words.filter fun word => !word.isEmpty
  words.foldl (fun mask word => List.zipWith or mask (coverage word 0 [] folded))
    (folded.map fun _ => false)

def group (done : List Run) : List (Char × Bool) → List Run
  | [] => (done.map fun run => { run with text := run.text.reverse }).reverse
  | (c, marked) :: rest =>
    match done with
    | run :: before =>
      if run.marked = marked then group (⟨marked, c :: run.text⟩ :: before) rest
      else group (⟨marked, [c]⟩ :: done) rest
    | [] => group [⟨marked, [c]⟩] rest

/-- A text with the occurrences of words as its matches, or nothing when none occurs. -/
def ofWords? (words : List (List Char)) (text : List Char) : Option Highlighted :=
  let mask := covered words text
  if mask.any id then some ⟨group [] (text.zip mask)⟩ else none

def runWithMarks (run : Run) : List Char :=
  if run.marked then startMark ++ run.text ++ endMark else run.text

def withMarks (highlighted : Highlighted) : List Char := highlighted.runs.flatMap runWithMarks

end Highlighted

end SearchRelay
