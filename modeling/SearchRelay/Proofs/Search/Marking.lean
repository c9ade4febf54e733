import SearchRelay.Proofs.Search.Coverage

/-!
Texts with marks around the words of a query. Reading such a text gives the text back, and its
matches are made of occurrences of the words: they have whole characters, lie in order with
something between them, and none of the places of a match lies outside every occurrence.
-/

namespace SearchRelay

namespace Text

/-- A place between two characters of a text, in bytes. -/
def Boundary (text : List Char) (place : Nat) : Prop :=
  ∃ before after, text = before ++ after ∧ place = byteLength before

/-- The place of a nonempty word in a text: where it begins and ends, in bytes. -/
def Occurrence (words : List (List Char)) (text : List Char) (place : Nat × Nat) : Prop :=
  ∃ word ∈ words, word ≠ [] ∧ ∃ before after, text = before ++ word ++ after ∧
    place = (byteLength before, byteLength (before ++ word))

end Text

namespace Highlighted

theorem Tidy.tail {run : Run} {rest : List Run} (tidy : Tidy (run :: rest)) : Tidy rest :=
  ⟨(List.forall_mem_cons.1 tidy.solid).2, tidy.turns.tail⟩

/-- What follows a match begins behind it, not where it ends. -/
theorem Tidy.later {run : Run} {rest : List Run} (tidy : Tidy (run :: rest)) (marked : run.marked)
    {offset : Nat} {place : Nat × Nat} (follows : place ∈ spansFrom offset [] rest) :
    offset < place.1 := by
  obtain ⟨before, found, after, rfl, matched, rfl⟩ := mem_spansFrom.1 follows
  cases before with
  | nil =>
    have other := (List.isChain_cons_cons.1 tidy.turns).1
    exact absurd (marked.trans (Run.isMatch_iff.1 matched).1.symm) other
  | cons first before =>
    have text := tidy.solid first (by simp)
    have nonempty : textOf (first :: before) ≠ [] := fun empty =>
      text (List.append_eq_nil_iff.1 empty).1
    exact Nat.lt_add_of_pos_right (Text.byteLength_pos nonempty)

/-- Places lie in order, with something between any two of them. -/
def Apart (spans : List (Nat × Nat)) : Prop := spans.Pairwise fun a b => a.2 < b.1

theorem Tidy.apart {runs : List Run} (tidy : Tidy runs) (offset : Nat) :
    Apart (spansFrom offset [] runs) := by
  induction runs generalizing offset with
  | nil => exact List.Pairwise.nil
  | cons run rest ih =>
    have later := ih tidy.tail (offset + Text.byteLength run.text)
    rw [spansFrom_cons]
    split
    next matched =>
      exact List.pairwise_cons.2
        ⟨fun place follows => tidy.later (Run.isMatch_iff.1 matched).1 follows, later⟩
    next => exact later

theorem exists_marked {runs : List Run} {place : Nat} (set : (marksOf runs)[place]? = some true) :
    ∃ before run after, runs = before ++ run :: after ∧ run.marked ∧
      ∃ inner < run.text.length, place = (textOf before).length + inner := by
  induction runs generalizing place with
  | nil => cases set
  | cons run rest ih =>
    have bits : marksOf (run :: rest) = List.replicate run.text.length run.marked ++ marksOf rest :=
      List.flatMap_cons
    rw [bits] at set
    by_cases here : place < run.text.length
    · rw [List.getElem?_append_left (by simpa using here), List.getElem?_replicate, if_pos here] at set
      exact ⟨[], run, rest, rfl, Option.some.inj set, place, here, (Nat.zero_add place).symm⟩
    · rw [List.getElem?_append_right (by simpa using here), List.length_replicate] at set
      obtain ⟨before, found, after, rfl, marked, inner, inside, split⟩ := ih set
      refine ⟨run :: before, found, after, rfl, marked, inner, inside, ?_⟩
      rw [textOf_cons, List.length_append]
      omega

/-! ### Matches and occurrences -/

/-- The spans of a text in which words are marked. -/
structure Pinned (words : List (List Char)) (text : List Char) (spans : List (Nat × Nat)) : Prop where
  nonempty : ∀ span ∈ spans, span.1 < span.2
  whole : ∀ span ∈ spans, Text.Boundary text span.1 ∧ Text.Boundary text span.2
  apart : Apart spans
  union : ∀ span ∈ spans, ∃ places : Set (Nat × Nat),
    (∀ place ∈ places, Text.Occurrence words (Text.fold text) place) ∧
      Set.Ico span.1 span.2 = ⋃ place ∈ places, Set.Ico place.1 place.2
  found : ∀ place, Text.Occurrence words (Text.fold text) place →
    ∃ span ∈ spans, span.1 ≤ place.1 ∧ place.1 < span.2

theorem exists_run {runs : List Run} {span : Nat × Nat} (known : span ∈ spansFrom 0 [] runs) :
    ∃ before run after, runs = before ++ run :: after ∧ run.isMatch ∧
      span.1 = Text.byteLength (textOf before) ∧
        span.2 = Text.byteLength (textOf before) + Text.byteLength run.text := by
  obtain ⟨before, run, after, split, isMatch, rfl⟩ := mem_spansFrom.1 known
  exact ⟨before, run, after, split, isMatch, Nat.zero_add _, by simp⟩

section
variable {words : List (List Char)} {text : List Char}

theorem Matches.parts {before after : List Run} {run : Run}
    (matched : Matches words text (before ++ run :: after)) :
    text = textOf before ++ run.text ++ textOf after := by
  rw [← matched.whole, textOf_append, textOf_cons, List.append_assoc]

/-- Each byte of a match lies in an occurrence of a word that lies in the match. -/
theorem Matches.occurrence_at {before after : List Run} {run : Run}
    (matched : Matches words text (before ++ run :: after)) (marked : run.marked) {place : Nat}
    (low : Text.byteLength (textOf before) ≤ place)
    (high : place < Text.byteLength (textOf before) + Text.byteLength run.text) :
    ∃ found, Text.Occurrence words (Text.fold text) found ∧
      Text.byteLength (textOf before) ≤ found.1 ∧ found.1 ≤ place ∧ place < found.2 ∧
        found.2 ≤ Text.byteLength (textOf before) + Text.byteLength run.text := by
  obtain ⟨inner, rfl⟩ := Nat.exists_eq_add_of_le low
  have inside : inner < Text.byteLength (Text.fold run.text) := by
    rw [Text.byteLength_fold]; omega
  obtain ⟨skipped, c, later, split, first, last⟩ := Text.exists_char inside
  have here : skipped.length < run.text.length := by
    have size := congrArg List.length split
    rw [Text.length_fold, List.length_append, List.length_cons] at size
    omega
  obtain ⟨word, known, nonempty, early, late, occurs, starts, ends⟩ := matched.occurrence marked here
  -- the occurrence begins at or before the character and ends behind it
  have begins : early <+: skipped := by
    refine List.prefix_of_prefix_length_le ?_ ⟨c :: later, split.symm⟩ starts
    exact ⟨word ++ late, by rw [occurs, List.append_assoc]⟩
  have reaches : skipped ++ [c] <+: early ++ word := by
    refine List.prefix_of_prefix_length_le ?_ ⟨late, occurs.symm⟩ ?_
    · exact ⟨later, by rw [split, List.append_assoc]; rfl⟩
    · rw [List.length_append, List.length_append]; exact ends
  have within := Text.byteLength_mono ⟨late, occurs.symm⟩
  have start := Text.byteLength_mono begins
  have stop := Text.byteLength_mono reaches
  rw [Text.byteLength_fold] at within
  have moved (part : List Char) : Text.byteLength (Text.fold (textOf before) ++ part) =
      Text.byteLength (textOf before) + Text.byteLength part := by
    rw [Text.byteLength_append, Text.byteLength_fold]
  refine ⟨_, ⟨word, known, nonempty, Text.fold (textOf before) ++ early,
    late ++ Text.fold (textOf after), ?_, rfl⟩, ?_⟩
  · rw [matched.parts, Text.fold_append, Text.fold_append, occurs]
    simp
  · simp only [moved, List.append_assoc]
    omega

/-- The bytes of a match are those of the occurrences that lie in it. -/
theorem Matches.union {before after : List Run} {run : Run}
    (matched : Matches words text (before ++ run :: after)) (marked : run.marked) {span : Nat × Nat}
    (first : span.1 = Text.byteLength (textOf before))
    (last : span.2 = Text.byteLength (textOf before) + Text.byteLength run.text) :
    ∃ places : Set (Nat × Nat), (∀ place ∈ places, Text.Occurrence words (Text.fold text) place) ∧
      Set.Ico span.1 span.2 = ⋃ place ∈ places, Set.Ico place.1 place.2 := by
  refine ⟨{place | Text.Occurrence words (Text.fold text) place ∧
    span.1 ≤ place.1 ∧ place.2 ≤ span.2}, fun place here => here.1, ?_⟩
  ext byte
  simp only [Set.mem_iUnion, Set.mem_Ico, Set.mem_ofPred_eq, exists_prop]
  constructor
  · rintro ⟨low, high⟩
    obtain ⟨found, occurs, fits, starts, ends, inside⟩ :=
      matched.occurrence_at marked (first ▸ low) (last ▸ high)
    exact ⟨found, ⟨occurs, first ▸ fits, last ▸ inside⟩, starts, ends⟩
  · rintro ⟨found, ⟨-, fits, inside⟩, starts, ends⟩
    exact ⟨fits.trans starts, ends.trans_le inside⟩

/-- What begins in a run, by the characters before it, begins there by the bytes as well. -/
theorem Matches.begins {before after : List Run} {run : Run}
    (matched : Matches words text (before ++ run :: after)) {early : List Char} {inner : Nat}
    (starts : early <+: Text.fold text) (inside : inner < run.text.length)
    (here : early.length = (textOf before).length + inner) :
    Text.byteLength (textOf before) ≤ Text.byteLength early ∧
      Text.byteLength early < Text.byteLength (textOf before) + Text.byteLength run.text := by
  have first : Text.fold (textOf before) <+: early := by
    refine List.prefix_of_prefix_length_le ?_ starts ?_
    · exact ⟨Text.fold (run.text ++ textOf after), by
        rw [← Text.fold_append, ← List.append_assoc, ← matched.parts]⟩
    · rw [Text.length_fold]; omega
  have size : early.length < (Text.fold (textOf before ++ run.text)).length := by
    rw [Text.length_fold, List.length_append]; omega
  have last : early <+: Text.fold (textOf before ++ run.text) := by
    refine List.prefix_of_prefix_length_le starts ?_ size.le
    exact ⟨Text.fold (textOf after), by rw [← Text.fold_append, ← matched.parts]⟩
  have low := Text.byteLength_mono first
  have high := Text.byteLength_lt last size
  rw [Text.byteLength_fold] at low
  rw [Text.byteLength_fold, Text.byteLength_append] at high
  exact ⟨low, high⟩

/-- Each occurrence begins in a match. -/
theorem Matches.exists_span {runs : List Run} (matched : Matches words text runs) {place : Nat × Nat}
    (occurs : Text.Occurrence words (Text.fold text) place) :
    ∃ span ∈ spansFrom 0 [] runs, span.1 ≤ place.1 ∧ place.1 < span.2 := by
  obtain ⟨word, known, nonempty, early, late, split, rfl⟩ := occurs
  have set := covered_of_occurs known nonempty split.symm
  rw [← matched.marks] at set
  obtain ⟨before, run, after, rfl, marked, inner, inside, start⟩ := exists_marked set
  have isMatch : run.isMatch := Run.isMatch_iff.2
    ⟨marked, List.ne_nil_of_length_pos (Nat.zero_lt_of_lt inside)⟩
  have starts : early <+: Text.fold text := ⟨word ++ late, by rw [split, List.append_assoc]⟩
  refine ⟨_, mem_spansFrom.2 ⟨before, run, after, rfl, isMatch, rfl⟩, ?_⟩
  rw [Nat.zero_add]
  exact matched.begins starts inside start

theorem Matches.pinned {runs : List Run} (matched : Matches words text runs) :
    Pinned words text (spansFrom 0 [] runs) := by
  constructor
  case nonempty =>
    intro span known
    obtain ⟨before, run, after, -, isMatch, first, last⟩ := exists_run known
    have long := Text.byteLength_pos (Run.isMatch_iff.1 isMatch).2
    omega
  case whole =>
    intro span known
    obtain ⟨before, run, after, rfl, -, first, last⟩ := exists_run known
    refine ⟨⟨textOf before, run.text ++ textOf after, ?_, first⟩,
      ⟨textOf before ++ run.text, textOf after, matched.parts, ?_⟩⟩
    · rw [matched.parts, List.append_assoc]
    · rw [last, Text.byteLength_append]
  case apart => exact matched.tidy.apart 0
  case union =>
    intro span known
    obtain ⟨before, run, after, rfl, isMatch, first, last⟩ := exists_run known
    exact matched.union (Run.isMatch_iff.1 isMatch).1 first last
  case found => exact fun place occurs => matched.exists_span occurs

theorem Matches.unmistakable {runs : List Run} (matched : Matches words text runs)
    (starts : ¬ startMark <:+: text) (ends : ¬ endMark <:+: text) :
    ∀ run ∈ runs, Unmistakable run := by
  intro run known
  have part : run.text <:+: text :=
    matched.whole ▸ List.infix_of_mem_flatten (List.mem_map_of_mem known)
  exact ⟨fun inside => ends (inside.trans part), fun _ inside => starts (inside.trans part)⟩

end

/-- Words are marked in a text if and only if one of them occurs in it. Without the marks it is the
text again, and the marks stood around unions of occurrences. -/
theorem parse_marked (words : List (List Char)) (text : List Char)
    (starts : ¬ startMark <:+: text) (ends : ¬ endMark <:+: text) :
    match (ofWords? words text).map withMarks with
    | none => ∀ word ∈ words, word ≠ [] → ¬ word <:+: Text.fold text
    | some marked => (∃ word ∈ words, word ≠ [] ∧ word <:+: Text.fold text) ∧
        (parse marked).plain = text ∧ Pinned words text (parse marked).spans := by
  cases made : ofWords? words text with
  | none => exact ofWords?_eq_none.1 made
  | some found =>
    have matched := matches_ofWords? made
    obtain ⟨plain, spans⟩ :=
      parse_withMarks matched.tidy.turns (matched.unmistakable starts ends)
    exact ⟨exists_occurrence made, plain.trans matched.whole, spans ▸ matched.pinned⟩

/-- Two words that overlap behind a letter of two bytes. -/
theorem parse_marked_overlap :
    let words := ["red".toList, "edge".toList]
    let text := "É Redge.".toList
    let marked := "É ".toList ++ startMark ++ "Redge".toList ++ endMark ++ ".".toList
    (¬ startMark <:+: text ∧ ¬ endMark <:+: text ∧ (ofWords? words text).map withMarks = some marked) ∧
      (∃ word ∈ words, word ≠ [] ∧ word <:+: Text.fold text) ∧ (parse marked).plain = text ∧
        Pinned words text (parse marked).spans := by
  intro words text marked
  have starts : ¬ startMark <:+: text := by decide
  have ends : ¬ endMark <:+: text := by decide
  have made : (ofWords? words text).map withMarks = some marked := by decide
  have read := parse_marked words text starts ends
  rw [made] at read
  exact ⟨⟨starts, ends, made⟩, read⟩

end Highlighted

end SearchRelay
