import SearchRelay.Proofs.Search.Marking

/-!
Words that overlap. The occurrences of one word are taken from left to right and never overlap, so
one that begins within an earlier one of its own word is left out. It lies in a match all the same
if each of its characters belongs to an occurrence that is taken, of whichever word.
-/

namespace SearchRelay

/-- The word occurs at a place, and no earlier occurrence that is taken reaches beyond it. -/
def Text.Taken (word text : List Char) (start : Nat) : Prop :=
  word <+: text.drop start ∧
    ∀ earlier, earlier < start → Taken word text earlier → earlier + word.length ≤ start
termination_by start

namespace Highlighted

open Text (Taken)

/-- The place lies in an occurrence of the word that is taken. -/
def Reached (word text : List Char) (place : Nat) : Prop :=
  ∃ start, Taken word text start ∧ start ≤ place ∧ place < start + word.length

/-! ### What is covered -/

section
variable {word text : List Char} {place left : Nat}

/-- So many characters from a place on belong to the last occurrence taken before it. -/
structure Owes (word text : List Char) (place left : Nat) : Prop where
  most : ∀ start < place, Taken word text start → start + word.length ≤ place + left
  exact : 0 < left → ∃ start < place, Taken word text start ∧ start + word.length = place + left

theorem Owes.start (word text : List Char) : Owes word text 0 0 :=
  ⟨fun _ before => absurd before (Nat.not_lt_zero _), fun positive => absurd positive (lt_irrefl 0)⟩

theorem Owes.taken (owes : Owes word text place left) :
    Taken word text place ↔ left = 0 ∧ word <+: text.drop place := by
  rw [Taken]
  constructor
  · intro ⟨occurs, free⟩
    refine ⟨?_, occurs⟩
    by_contra busy
    obtain ⟨start, before, taken, stop⟩ := owes.exact (Nat.pos_of_ne_zero busy)
    have fits := free start before taken
    omega
  · intro ⟨zero, occurs⟩
    refine ⟨occurs, fun start before taken => ?_⟩
    have fits := owes.most start before taken
    omega

theorem Owes.reached (owes : Owes word text place left) (nonempty : word ≠ []) :
    Reached word text place ↔ 0 < left ∨ word <+: text.drop place := by
  have size := List.length_pos_iff.2 nonempty
  constructor
  · intro ⟨start, taken, low, high⟩
    rcases low.lt_or_eq with before | rfl
    · have fits := owes.most start before taken
      exact Or.inl (by omega)
    · exact Or.inr (owes.taken.1 taken).2
  · intro here
    rcases Nat.eq_zero_or_pos left with zero | more
    · have occurs := here.resolve_left (by omega)
      exact ⟨place, owes.taken.2 ⟨zero, occurs⟩, le_refl place, by omega⟩
    · obtain ⟨start, before, taken, stop⟩ := owes.exact more
      exact ⟨start, taken, before.le, by omega⟩

/-- Past an occurrence that is taken the rest of it is left. -/
theorem Owes.next_taken (owes : Owes word text place left) (nonempty : word ≠ [])
    (taken : Taken word text place) : Owes word text (place + 1) (word.length - 1) := by
  have size := List.length_pos_iff.2 nonempty
  refine ⟨fun start before other => ?_, fun _ => ⟨place, Nat.lt_succ_self place, taken, by omega⟩⟩
  rcases Nat.lt_succ_iff_lt_or_eq.1 before with earlier | rfl
  · have free := (owes.taken.1 taken).1
    have fits := owes.most start earlier other
    omega
  · omega

theorem Owes.next_free (owes : Owes word text place left) (free : ¬ Taken word text place) :
    Owes word text (place + 1) (left - 1) := by
  refine ⟨fun start before other => ?_, fun more => ?_⟩
  · rcases Nat.lt_succ_iff_lt_or_eq.1 before with earlier | rfl
    · have fits := owes.most start earlier other
      omega
    · exact absurd other free
  · obtain ⟨start, before, taken, stop⟩ := owes.exact (by omega)
    exact ⟨start, by omega, taken, by omega⟩

theorem Reached.inside (reached : Reached word text place) : place < text.length := by
  obtain ⟨start, taken, low, high⟩ := reached
  rw [Taken] at taken
  have fits := taken.1.length_le
  rw [List.length_drop] at fits
  omega

/-- What is covered from a place on is what the occurrences that are taken reach. -/
theorem coverage_reached (nonempty : word ≠ []) {front rest : List Char}
    (owes : Owes word (front ++ rest) front.length left) (place : Nat) :
    (coverage word left [] rest)[place]? = some true ↔
      Reached word (front ++ rest) (front.length + place) := by
  induction rest generalizing front left place with
  | nil =>
    refine iff_of_false ?_ fun reached => ?_
    · cases left <;> simp [coverage]
    · have inside := reached.inside
      rw [List.append_nil] at inside
      omega
  | cons c rest ih =>
    have whole : front ++ c :: rest = (front ++ [c]) ++ rest := by simp
    have size : (front ++ [c]).length = front.length + 1 := by simp
    have here := owes.reached nonempty
    rw [List.drop_left] at here
    have later {next : Nat} (owed : Owes word (front ++ c :: rest) (front.length + 1) next)
        (place : Nat) : (coverage word next [] rest)[place]? = some true ↔
          Reached word (front ++ c :: rest) (front.length + (place + 1)) := by
      rw [whole, ← size] at owed
      rw [ih owed, whole, size, Nat.add_assoc, Nat.add_comm 1]
    have taken := owes.taken
    rw [List.drop_left] at taken
    cases left with
    | succ left =>
      rw [coverage_inside]
      cases place with
      | zero => exact iff_of_true rfl (here.2 (Or.inl (Nat.succ_pos left)))
      | succ place => exact later (owes.next_free fun this => by cases (taken.1 this).1) place
    | zero =>
      rw [coverage_cons]
      split
      next occurs =>
        cases place with
        | zero => exact iff_of_true rfl (here.2 (Or.inr occurs))
        | succ place => exact later (owes.next_taken nonempty (taken.2 ⟨rfl, occurs⟩)) place
      next past =>
        cases place with
        | zero => exact iff_of_false (by simp) fun reached => by simpa [past] using here.1 reached
        | succ place => exact later (owes.next_free fun this => past (taken.1 this).2) place

end

theorem covered_reached {words : List (List Char)} {text : List Char} {place : Nat} :
    (covered words text)[place]? = some true ↔
      ∃ word ∈ words, word ≠ [] ∧ Reached word (Text.fold text) place := by
  rw [covered_iff]
  refine exists_congr fun word => and_congr_right fun _ => and_congr_right fun nonempty => ?_
  have begun : Owes word ([] ++ Text.fold text) ([] : List Char).length 0 := .start word _
  have scanned := coverage_reached nonempty begun place
  rwa [List.nil_append, List.length_nil, Nat.zero_add] at scanned

/-! ### What lies in a match -/

section
variable {words : List (List Char)} {word text early late : List Char}

theorem Matches.span_iff {before after : List Run} {run : Run}
    (matched : Matches words text (before ++ run :: after))
    (split : Text.fold text = early ++ word ++ late) :
    (Text.byteLength (textOf before) ≤ Text.byteLength early ∧
        Text.byteLength (early ++ word) ≤
          Text.byteLength (textOf before) + Text.byteLength run.text) ↔
      (textOf before).length ≤ early.length ∧
        early.length + word.length ≤ (textOf before).length + run.text.length := by
  have whole : Text.fold text =
      Text.fold (textOf before) ++ Text.fold run.text ++ Text.fold (textOf after) := by
    rw [matched.parts, Text.fold_append, Text.fold_append]
  have first : Text.fold (textOf before) <+: Text.fold text :=
    ⟨Text.fold run.text ++ Text.fold (textOf after), by rw [whole, List.append_assoc]⟩
  have last : Text.fold (textOf before) ++ Text.fold run.text <+: Text.fold text :=
    ⟨Text.fold (textOf after), whole.symm⟩
  have starts : early <+: Text.fold text := ⟨word ++ late, by rw [split, List.append_assoc]⟩
  have stops : early ++ word <+: Text.fold text := ⟨late, split.symm⟩
  have begins := Text.byteLength_le_iff first starts
  have ends := Text.byteLength_le_iff stops last
  rw [Text.byteLength_fold, Text.length_fold] at begins
  rw [Text.byteLength_append (Text.fold _), Text.byteLength_fold, Text.byteLength_fold,
    List.length_append, List.length_append, Text.length_fold, Text.length_fold] at ends
  exact and_congr begins ends

/-- An occurrence lies in a match if and only if all its places are covered. -/
theorem Matches.inside_iff {runs : List Run} (matched : Matches words text runs)
    (nonempty : word ≠ []) (split : Text.fold text = early ++ word ++ late) :
    (∃ span ∈ spansFrom 0 [] runs,
        span.1 ≤ Text.byteLength early ∧ Text.byteLength (early ++ word) ≤ span.2) ↔
      ∀ place, early.length ≤ place → place < early.length + word.length →
        (covered words text)[place]? = some true := by
  constructor
  · intro ⟨span, known, low, high⟩ place behind ahead
    obtain ⟨before, run, after, rfl, isMatch, first, last⟩ := exists_run known
    rw [first] at low
    rw [last] at high
    obtain ⟨starts, stops⟩ := (matched.span_iff split).1 ⟨low, high⟩
    rw [matched.covered_run (Run.isMatch_iff.1 isMatch).1]
    obtain ⟨inner, rfl⟩ := Nat.exists_eq_add_of_le (starts.trans behind)
    rw [← length_marksOf, List.append_assoc,
      List.getElem?_append_right (Nat.le_add_right _ _), Nat.add_sub_cancel_left,
      List.getElem?_append_left (by rw [List.length_replicate]; omega), List.getElem?_replicate,
      if_pos (by omega)]
  · intro whole
    have size := List.length_pos_iff.2 nonempty
    have set := whole early.length (le_refl _) (Nat.lt_add_of_pos_right size)
    rw [← matched.marks] at set
    obtain ⟨before, run, after, rfl, marked, inner, inside, start⟩ := exists_marked set
    rw [matched.covered_run marked] at whole
    rw [← length_marksOf] at start
    obtain ⟨first, last⟩ := stays_inside (matched.tidy.edge marked) (matched.tidy.border marked)
      whole start.le (by omega) (by rwa [List.length_replicate])
    rw [List.length_replicate, length_marksOf] at last
    rw [length_marksOf] at first
    have isMatch : run.isMatch := Run.isMatch_iff.2
      ⟨marked, List.ne_nil_of_length_pos (Nat.zero_lt_of_lt inside)⟩
    obtain ⟨low, high⟩ := (matched.span_iff split).2 ⟨first, last⟩
    refine ⟨_, mem_spansFrom.2 ⟨before, run, after, rfl, isMatch, rfl⟩, ?_⟩
    rw [Nat.zero_add]
    exact ⟨low, high⟩

/-- An occurrence that no earlier one of its word overlaps is taken. -/
theorem taken_of_clear (split : Text.fold text = early ++ word ++ late)
    (clear : ∀ start < early.length, word <+: (Text.fold text).drop start →
      start + word.length ≤ early.length) : Taken word (Text.fold text) early.length := by
  rw [Taken]
  refine ⟨?_, fun start before taken => ?_⟩
  · rw [split, List.append_assoc, List.drop_left]
    exact List.prefix_append word late
  · rw [Taken] at taken
    exact clear start before taken.1

end

/-- In a text without marks in which some word occurs, an occurrence of a word lies in a match if
and only if each of its characters belongs to an occurrence that is taken, of any of the words. So
it does when no earlier occurrence of its own word overlaps it. -/
theorem occurrence_marked_iff (words : List (List Char)) (text : List Char)
    (starts : ¬ startMark <:+: text) (ends : ¬ endMark <:+: text)
    (occurs : ∃ word ∈ words, word ≠ [] ∧ word <:+: Text.fold text) :
    ∃ marked, (ofWords? words text).map withMarks = some marked ∧
      ∀ word ∈ words, word ≠ [] → ∀ early late, Text.fold text = early ++ word ++ late →
        let inside := ∃ span ∈ (parse marked).spans,
          span.1 ≤ Text.byteLength early ∧ Text.byteLength (early ++ word) ≤ span.2
        (inside ↔ ∀ place, early.length ≤ place → place < early.length + word.length →
          ∃ other ∈ words, other ≠ [] ∧ Reached other (Text.fold text) place) ∧
        ((∀ start < early.length, word <+: (Text.fold text).drop start →
          start + word.length ≤ early.length) → inside) := by
  cases made : ofWords? words text with
  | none =>
    obtain ⟨word, known, nonempty, here⟩ := occurs
    exact absurd here (ofWords?_eq_none.1 made word known nonempty)
  | some found =>
    have matched := matches_ofWords? made
    obtain ⟨-, spans⟩ := parse_withMarks matched.tidy.turns (matched.unmistakable starts ends)
    refine ⟨withMarks found, rfl, ?_⟩
    intro word known nonempty early late split inside
    have reached : inside ↔ ∀ place, early.length ≤ place → place < early.length + word.length →
        ∃ other ∈ words, other ≠ [] ∧ Reached other (Text.fold text) place := by
      simp only [← covered_reached]
      rw [← matched.inside_iff nonempty split, ← Highlighted.spans, ← spans]
    refine ⟨reached, fun clear => reached.2 fun place low high => ?_⟩
    exact ⟨word, known, nonempty, early.length, taken_of_clear split clear, low, high⟩

/-- The second ana of a banana overlaps the first. It is marked for the na behind it. -/
theorem occurrence_marked_iff_banana :
    let words := ["ana".toList, "na".toList]
    let text := "Banana".toList
    (¬ startMark <:+: text ∧ ¬ endMark <:+: text) ∧
      (∃ word ∈ words, word ≠ [] ∧ word <:+: Text.fold text) ∧
      ∃ marked, (ofWords? words text).map withMarks = some marked ∧
        ∃ span ∈ (parse marked).spans, span.1 ≤ 3 ∧ 6 ≤ span.2 := by
  intro words text
  have starts : ¬ startMark <:+: text := by decide
  have ends : ¬ endMark <:+: text := by decide
  have occurs : ∃ word ∈ words, word ≠ [] ∧ word <:+: Text.fold text := by decide
  obtain ⟨marked, made, inside⟩ := occurrence_marked_iff words text starts ends occurs
  obtain ⟨reached, -⟩ := inside "ana".toList (by decide) (by decide) "ban".toList [] rfl
  refine ⟨⟨starts, ends⟩, occurs, marked, made, reached.2 fun place low high => ?_⟩
  by_cases first : place = 3
  · have split : Text.fold text = ['b'] ++ "ana".toList ++ "na".toList := rfl
    have taken : Taken "ana".toList (Text.fold text) ['b'].length :=
      taken_of_clear split (by decide)
    exact ⟨_, by decide, by decide, _, taken, first ▸ by decide, first ▸ by decide⟩
  · have split : Text.fold text = "bana".toList ++ "na".toList ++ [] := rfl
    have taken : Taken "na".toList (Text.fold text) "bana".toList.length :=
      taken_of_clear split (by decide)
    have behind : 3 ≤ place := low
    have ahead : place < 6 := high
    exact ⟨_, by decide, by decide, _, taken, show 4 ≤ place by omega, show place < 6 from ahead⟩

/-- A word that overlaps itself occurs twice, and no match holds its second occurrence. -/
theorem occurrence_left_out :
    let words := ["aa".toList]
    let text := "aaa".toList
    (¬ startMark <:+: text ∧ ¬ endMark <:+: text) ∧
      Text.Occurrence words (Text.fold text) (1, 3) ∧
      ∃ marked, (ofWords? words text).map withMarks = some marked ∧
        ¬ ∃ span ∈ (parse marked).spans, span.1 ≤ 1 ∧ 3 ≤ span.2 := by
  intro words text
  have made : ofWords? words text = some ⟨[.mark "aa".toList, .plain "a".toList]⟩ := by decide
  have matched := matches_ofWords? made
  have starts : ¬ startMark <:+: text := by decide
  have ends : ¬ endMark <:+: text := by decide
  obtain ⟨-, spans⟩ := parse_withMarks matched.tidy.turns (matched.unmistakable starts ends)
  refine ⟨⟨starts, ends⟩, ⟨_, List.mem_singleton_self _, by decide, ['a'], [], rfl, rfl⟩, ?_⟩
  rw [made]
  refine ⟨_, rfl, ?_⟩
  rw [spans]
  decide

end Highlighted

end SearchRelay
