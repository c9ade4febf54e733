import SearchRelay.Text.Line
import SearchRelay.Text.Space
import SearchRelay.Proofs.Json.RoundTrip
import SearchRelay.Proofs.Text.Words

/-!
Lines of printed values. A printed value holds no control character, so it is one line of its own
in a text of lines, whatever its strings hold.
-/

namespace SearchRelay

namespace Text

/-- No character of a text is a control character. -/
def Visible (text : List Char) : Prop := ∀ c ∈ text, 0x20 ≤ c.toNat

theorem visible_cons {c : Char} {rest : List Char} :
    Visible (c :: rest) ↔ 0x20 ≤ c.toNat ∧ Visible rest := List.forall_mem_cons

theorem visible_append {before after : List Char} :
    Visible (before ++ after) ↔ Visible before ∧ Visible after := List.forall_mem_append

theorem visible_of_all {text : List Char} (all : text.all (0x20 ≤ ·.toNat)) : Visible text :=
  fun c inside => of_decide_eq_true (List.all_eq_true.1 all c inside)

theorem code_of_isDigit {c : Char} (digit : c.isDigit) : 48 ≤ c.toNat ∧ c.toNat ≤ 57 :=
  Char.isDigit_iff_toNat.1 digit

theorem visible_digits {digits : List Char} (all : ∀ c ∈ digits, c.isDigit) : Visible digits :=
  fun c inside => Nat.le_trans (by decide) (code_of_isDigit (all c inside)).1

theorem Visible.not_mem {text : List Char} (visible : Visible text) {c : Char}
    (control : c.toNat < 0x20) : c ∉ text := fun inside => Nat.not_lt.2 (visible c inside) control

/-! ### Splitting -/

section
variable {α : Type} [DecidableEq α] (feed : α)

theorem splitLines_done (pending : List α) (done : List (List α)) (text : List α) :
    splitLines feed pending done text = done.reverse ++ splitLines feed pending [] text := by
  induction text generalizing pending done with
  | nil => cases pending <;> simp [splitLines]
  | cons c rest ih =>
    simp only [splitLines]
    split
    · rw [ih, ih [] [_]]
      simp
    · exact ih _ _

theorem splitLines_line {line : List α} (whole : feed ∉ line) (pending rest : List α) :
    splitLines feed pending [] (line ++ feed :: rest) =
      (pending.reverse ++ line ++ [feed]) :: splitLines feed [] [] rest := by
  induction line generalizing pending with
  | nil =>
    rw [List.nil_append, splitLines, if_pos rfl, splitLines_done]
    simp
  | cons c line ih =>
    obtain ⟨different, others⟩ := not_or.1 (mt List.mem_cons.2 whole)
    rw [List.cons_append, splitLines, if_neg (Ne.symm different), ih others]
    simp

end

/-- A visible text before a line feed is a line, and what follows are the other lines. -/
theorem lines_line {line : List Char} (visible : Visible line) (rest : List Char) :
    lines (line ++ '\n' :: rest) = line :: lines rest := by
  have split := splitLines_line '\n' (visible.not_mem (by decide)) [] rest
  simp only [lines, wholeLines, split, List.map_cons, List.reverse_nil, List.nil_append]
  congr 1
  -- the end of the line is its line feed alone, because no carriage return stands before it
  simp only [dropLineEnd, List.reverse_append, List.reverse_singleton, List.singleton_append]
  split
  next rest' same =>
    obtain ⟨_, tail⟩ := List.cons_eq_cons.1 same
    have inside : '\x0d' ∈ line := List.mem_reverse.1 (tail ▸ List.mem_cons_self)
    exact absurd inside (visible.not_mem (by decide))
  next rest' _ same =>
    obtain ⟨_, rfl⟩ := List.cons_eq_cons.1 same
    exact List.reverse_reverse line
  next _ other => exact absurd rfl (other _)

end Text

namespace Json

open Text (Visible)

theorem visible_escapeChar (c : Char) : Visible (escapeChar c) := by
  have digits : ∀ n < 16, 0x20 ≤ (hexDigit n).toNat := by decide
  unfold escapeChar
  split
  next => exact Text.visible_of_all (by decide)
  split
  next => exact Text.visible_of_all (by decide)
  split
  next visible => exact List.forall_mem_singleton.2 visible
  next control =>
  repeat' split
  all_goals try exact Text.visible_of_all (by decide)
  have high := digits (c.toNat / 16) (by omega)
  have low := digits (c.toNat % 16) (by omega)
  simp only [Visible, List.forall_mem_cons, List.not_mem_nil, false_implies, implies_true, and_true]
  exact ⟨by decide, by decide, by decide, by decide, high, low⟩

theorem visible_quote (text : List Char) : Visible (quote text) := by
  refine Text.visible_cons.2 ⟨by decide, Text.visible_append.2 ⟨?_, Text.visible_of_all (by decide)⟩⟩
  intro c inside
  obtain ⟨plain, _, escaped⟩ := List.mem_flatMap.1 inside
  exact visible_escapeChar plain c escaped

theorem visible_int (n : Int) : Visible (Number.int n).text := by
  cases n with
  | ofNat n => exact Text.visible_digits fun c => Text.isDigit_of_mem_decimal
  | negSucc n =>
    exact Text.visible_cons.2 ⟨by decide, Text.visible_digits fun c => Text.isDigit_of_mem_decimal⟩

mutual

theorem visible_print (value : Json) (whole : value.Whole) : Visible value.print := by
  match value with
  | .null | .bool true | .bool false | .arr [] | .obj [] => exact Text.visible_of_all (by decide)
  | .num (.int n) => exact visible_int n
  | .str text => exact visible_quote text.toList
  | .arr (first :: items) =>
    rw [print]
    exact Text.visible_cons.2 ⟨by decide, Text.visible_append.2
      ⟨visible_print first whole.1, visible_printItems items whole.2⟩⟩
  | .obj ((key, value) :: entries) =>
    rw [print]
    exact Text.visible_cons.2 ⟨by decide, Text.visible_append.2 ⟨visible_quote key.toList,
      Text.visible_cons.2 ⟨by decide, Text.visible_append.2
        ⟨visible_print value whole.1, visible_printEntries entries whole.2⟩⟩⟩⟩

theorem visible_printItems (items : List Json) (whole : WholeItems items) :
    Visible (printItems items) := by
  match items with
  | [] => exact Text.visible_of_all (by decide)
  | item :: items =>
    rw [printItems]
    exact Text.visible_cons.2 ⟨by decide, Text.visible_append.2
      ⟨visible_print item whole.1, visible_printItems items whole.2⟩⟩

theorem visible_printEntries (entries : List (String × Json)) (whole : WholeEntries entries) :
    Visible (printEntries entries) := by
  match entries with
  | [] => exact Text.visible_of_all (by decide)
  | (key, value) :: entries =>
    rw [printEntries]
    exact Text.visible_cons.2 ⟨by decide, Text.visible_append.2 ⟨visible_quote key.toList,
      Text.visible_cons.2 ⟨by decide, Text.visible_append.2
        ⟨visible_print value whole.1, visible_printEntries entries whole.2⟩⟩⟩⟩

end

theorem isBlank_print {value : Json} (whole : value.Whole) : Text.isBlank value.print = false := by
  match value with
  | .null | .bool true | .bool false | .arr [] | .obj [] => rfl
  | .str _ | .arr (_ :: _) | .obj ((_, _) :: _) => rfl
  | .num (.int n) =>
    obtain ⟨first, more, text, start, _⟩ := Number.text_int n
    have solid : Text.isSpace first = false := by
      rcases start with digit | rfl
      · exact Text.isSpace_of_isDigit digit
      · rfl
    rw [print, text, Text.isBlank, List.all_cons, solid, Bool.false_and]

end Json

end SearchRelay
