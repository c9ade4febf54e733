import Mathlib
import SearchRelay.Text.Occurrence
import SearchRelay.Text.Space

/-!
Words of a text and where they occur. A word holds no blank, so one that occurs in several texts
put on lines of their own occurs in one of them.
-/

namespace SearchRelay.Text

theorem isSpace_of_isDigit {c : Char} (digit : c.isDigit) : isSpace c = false := by
  have codes : 48 ≤ c.toNat ∧ c.toNat ≤ 57 := Char.isDigit_iff_toNat.1 digit
  simp only [isSpace, Bool.or_eq_false_iff, Bool.and_eq_false_iff, decide_eq_false_iff_not,
    beq_eq_false_iff_ne]
  omega

/-- A blank cuts a text in two as far as its words are concerned. -/
theorem words_append_space {c : Char} (space : isSpace c) (before after : List Char) :
    words (before ++ c :: after) = words before ++ words after := by
  rw [words, List.splitOnP_append_cons before after space, List.filter_append]
  rfl

theorem words_nil : words [] = [] := by
  rw [words, List.splitOnP_nil]
  rfl

theorem words_append_spaces (text spaces : List Char) (blank : ∀ c ∈ spaces, isSpace c) :
    words (text ++ spaces) = words text := by
  induction spaces generalizing text with
  | nil => rw [List.append_nil]
  | cons c spaces ih =>
    obtain ⟨first, others⟩ := List.forall_mem_cons.1 blank
    have rest := ih [] others
    rw [List.nil_append, words_nil] at rest
    rw [words_append_space first, rest, List.append_nil]

theorem words_spaces_append (spaces text : List Char) (blank : ∀ c ∈ spaces, isSpace c) :
    words (spaces ++ text) = words text := by
  induction spaces with
  | nil => rfl
  | cons c spaces ih =>
    obtain ⟨first, others⟩ := List.forall_mem_cons.1 blank
    have cut := words_append_space first [] (spaces ++ text)
    rw [List.nil_append, words_nil, List.nil_append] at cut
    rw [List.cons_append, cut, ih others]

theorem words_trim (text : List Char) : words (trim text) = words text := by
  have leading : words (text.dropWhile isSpace) = words text := by
    have apart := words_spaces_append (text.takeWhile isSpace) (text.dropWhile isSpace)
      fun c => List.mem_takeWhile_imp
    rw [← apart, List.takeWhile_append_dropWhile]
  have trailing (text : List Char) : words (text.reverse.dropWhile isSpace).reverse = words text := by
    have apart := words_append_spaces (text.reverse.dropWhile isSpace).reverse
      (text.reverse.takeWhile isSpace).reverse
      fun c inside => List.mem_takeWhile_imp (List.mem_reverse.1 inside)
    rw [← apart, ← List.reverse_append, List.takeWhile_append_dropWhile, List.reverse_reverse]
  rw [trim, trailing, leading]

/-- No character of a word is blank. -/
theorem isSpace_of_mem_words {text word : List Char} (member : word ∈ words text) {c : Char}
    (inside : c ∈ word) : isSpace c = false := by
  replace member := (isWord_of_mem_words member).2
  induction text generalizing word with
  | nil =>
    rw [List.splitOnP_nil, List.mem_singleton] at member
    exact absurd inside (member ▸ List.not_mem_nil)
  | cons first rest ih =>
    rw [List.splitOnP_cons_eq_if_modifyHead] at member
    split at member
    next =>
      rcases List.mem_cons.1 member with rfl | later
      · exact absurd inside List.not_mem_nil
      · exact ih inside later
    next solid =>
      obtain ⟨run, runs, split⟩ := List.exists_cons_of_ne_nil (List.splitOnP_ne_nil isSpace rest)
      rw [split, List.modifyHead_cons] at member
      rcases List.mem_cons.1 member with rfl | later
      · rcases List.mem_cons.1 inside with rfl | inside
        · exact Bool.eq_false_iff.2 solid
        · exact ih inside (split ▸ List.mem_cons_self)
      · exact ih inside (split ▸ List.mem_cons_of_mem _ later)

theorem isWord_iff {text : List Char} :
    isWord text ↔ text ≠ [] ∧ ∀ c ∈ text, isSpace c = false := by
  simp [isWord]

theorem isWord_of_word {text word : List Char} (member : word ∈ words text) : isWord word :=
  isWord_iff.2 ⟨(isWord_of_mem_words member).1, fun _ => isSpace_of_mem_words member⟩

theorem words_of_isWord {word : List Char} (solid : isWord word) : words word = [word] := by
  obtain ⟨nonempty, free⟩ := isWord_iff.1 solid
  have single : word.splitOnP isSpace = [word] :=
    List.splitOnP_eq_singleton fun c inside => by simpa using free c inside
  rw [words, single]
  simp [nonempty]

/-- Words that are joined by blanks are the words of the text. -/
theorem words_intercalate {fields : List (List Char)} (solid : ∀ field ∈ fields, isWord field) :
    words ([' '].intercalate fields) = fields := by
  induction fields with
  | nil => exact words_nil
  | cons field fields ih =>
    obtain ⟨first, others⟩ := List.forall_mem_cons.1 solid
    cases fields with
    | nil => simpa using words_of_isWord first
    | cons next fields =>
      rw [List.intercalate_cons_cons, List.append_assoc, List.singleton_append,
        words_append_space rfl, words_of_isWord first, ih others, List.singleton_append]

/-! ### Occurrences -/

theorem occurs_iff {needle text : List Char} : occurs needle text ↔ needle <:+: text := by
  induction text with
  | nil => rw [occurs, List.isEmpty_iff, List.infix_nil]
  | cons c rest ih =>
    rw [occurs, Bool.or_eq_true, ih, List.isPrefixOf_iff_prefix, List.infix_cons_iff]

/-- What occurs in two texts with a character between them that it does not hold lies before the
character or behind it. -/
theorem split_append_cons {needle before after text tail : List Char} {c : Char}
    (free : c ∉ needle) (solid : needle ≠ []) (whole : text ++ c :: tail = before ++ needle ++ after) :
    (∃ rest, text = before ++ needle ++ rest ∧ after = rest ++ c :: tail) ∨
      ∃ start, before = text ++ c :: start ∧ tail = start ++ needle ++ after := by
  rw [List.append_assoc] at whole
  rcases List.append_eq_append_iff.1 whole with ⟨start, rfl, later⟩ | ⟨part, rfl, here⟩
  · right
    cases start with
    | nil =>
      obtain ⟨d, needle, rfl⟩ := List.exists_cons_of_ne_nil solid
      obtain ⟨rfl, -⟩ := List.cons.inj later
      exact absurd List.mem_cons_self free
    | cons d start =>
      obtain ⟨rfl, rfl⟩ := List.cons.inj later
      exact ⟨start, rfl, (List.append_assoc _ _ _).symm⟩
  · left
    rcases List.append_eq_append_iff.1 here with ⟨rest, rfl, ends⟩ | ⟨common, rfl, ends⟩
    · exact ⟨rest, (List.append_assoc _ _ _).symm, ends⟩
    · cases common with
      | nil => exact ⟨[], by simp, ends.symm⟩
      | cons d common =>
        obtain ⟨rfl, -⟩ := List.cons.inj ends
        exact absurd (List.mem_append_right part List.mem_cons_self) free

/-- A text without the character between two others occurs in one of them, if it occurs. -/
theorem infix_append_cons {needle : List Char} {c : Char} (free : c ∉ needle)
    {before after : List Char} :
    needle <:+: before ++ c :: after ↔ needle <:+: before ∨ needle <:+: after := by
  constructor
  · rintro ⟨start, rest, whole⟩
    rcases eq_or_ne needle [] with rfl | solid
    · exact Or.inl List.nil_infix
    · rcases split_append_cons free solid whole.symm with ⟨ending, rfl, -⟩ | ⟨beginning, -, rfl⟩
      · exact Or.inl ⟨start, ending, rfl⟩
      · exact Or.inr ⟨beginning, rest, rfl⟩
  · rintro (left | right)
    · exact left.trans (List.prefix_append _ _).isInfix
    · exact right.trans ((List.suffix_cons c after).trans (List.suffix_append _ _)).isInfix

theorem infix_intercalate {needle : List Char} {c : Char} (solid : needle ≠ [])
    (free : c ∉ needle) {texts : List (List Char)} :
    needle <:+: [c].intercalate texts ↔ ∃ text ∈ texts, needle <:+: text := by
  induction texts with
  | nil => simp [solid]
  | cons text texts ih =>
    cases texts with
    | nil => simp
    | cons next texts =>
      rw [List.intercalate_cons_cons, List.append_assoc, List.singleton_append,
        infix_append_cons free, ih, List.exists_mem_cons_iff (l := next :: texts)]

theorem cons_intercalate (c : Char) (text : List Char) (texts : List (List Char)) :
    c :: [c].intercalate (text :: texts) = (text :: texts).flatMap (c :: ·) := by
  induction texts generalizing text with
  | nil => simp
  | cons next texts ih =>
    rw [List.intercalate_cons_cons, List.flatMap_cons, ← ih]
    simp

/-- What occurs in lines and holds no line end lies on one of them, with the other lines before it
and behind it. -/
theorem split_intercalate {needle before after : List Char} {c : Char} {texts : List (List Char)}
    (free : c ∉ needle) (solid : needle ≠ [])
    (whole : [c].intercalate texts = before ++ needle ++ after) :
    ∃ earlier text later start rest, texts = earlier ++ text :: later ∧
      text = start ++ needle ++ rest ∧ before = earlier.flatMap (· ++ [c]) ++ start ∧
      after = rest ++ later.flatMap (c :: ·) := by
  induction texts generalizing before with
  | nil => simp [solid] at whole
  | cons text texts ih =>
    cases texts with
    | nil => exact ⟨[], text, [], before, after, rfl, by simpa using whole, rfl, by simp⟩
    | cons next texts =>
      rw [List.intercalate_cons_cons, List.append_assoc, List.singleton_append] at whole
      rcases split_append_cons free solid whole with ⟨rest, here, behind⟩ | ⟨start, rfl, later⟩
      · exact ⟨[], text, next :: texts, before, rest, rfl, here, rfl,
          behind.trans (by rw [cons_intercalate])⟩
      · obtain ⟨earlier, found, others, start, rest, split, here, rfl, behind⟩ := ih later
        refine ⟨text :: earlier, found, others, start, rest, ?_, here, ?_, behind⟩
        · rw [split]; rfl
        · simp

/-- Folding neither makes nor removes a line feed. -/
theorem feed_mem_fold {text : List Char} : '\n' ∈ fold text ↔ '\n' ∈ text := by
  have unfolded (c : Char) : c.toLower = '\n' ↔ c = '\n' := by
    unfold Char.toLower
    split
    next upper =>
      have low : 65 ≤ c.val.toNat := UInt32.le_iff_toNat_le.1 upper.1
      have high : c.val.toNat ≤ 90 := UInt32.le_iff_toNat_le.1 upper.2
      refine ⟨fun same => ?_, ?_⟩
      · have sum : (c.val.toNat + 32) % 2 ^ 32 = 10 :=
          congrArg (fun c : Char => c.val.toNat) same
        omega
      · rintro rfl
        exact absurd low (by decide)
    next => rfl
  simp only [fold, List.mem_map, unfolded, exists_eq_right]

end SearchRelay.Text
