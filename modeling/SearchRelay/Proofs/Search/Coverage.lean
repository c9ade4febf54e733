import SearchRelay.Proofs.Search.Runs

/-!
Where words occur in a text. Every place that is covered lies in an occurrence that is covered as a
whole, and every occurrence is covered at its first place, so the runs of covered places are made of
occurrences and none is missing from them.
-/

namespace SearchRelay

namespace Highlighted

/-- A place lies in an occurrence of a word that is covered as a whole. -/
def Within (word text : List Char) (mask : List Bool) (place : Nat) : Prop :=
  ∃ start, start ≤ place ∧ place < start + word.length ∧ word <+: text.drop start ∧
    ∀ i, start ≤ i → i < start + word.length → mask[i]? = some true

theorem Within.cons {word text : List Char} {mask : List Bool} {place : Nat}
    (within : Within word text mask place) (c : Char) (bit : Bool) :
    Within word (c :: text) (bit :: mask) (place + 1) := by
  obtain ⟨start, before, after, occurs, whole⟩ := within
  refine ⟨start + 1, by omega, by omega, occurs, ?_⟩
  intro i low high
  obtain ⟨i, rfl⟩ := Nat.exists_eq_succ_of_ne_zero (n := i) (by omega)
  exact whole i (by omega) (by omega)

theorem Within.mono {word text : List Char} {mask other : List Bool} {place : Nat}
    (within : Within word text mask place)
    (more : ∀ i : Nat, mask[i]? = some true → other[i]? = some true) : Within word text other place := by
  obtain ⟨start, before, after, occurs, whole⟩ := within
  exact ⟨start, before, after, occurs, fun i low high => more i (whole i low high)⟩

/-! ### One word -/

section
variable {word : List Char}

theorem coverage_done (word : List Char) (left : Nat) (done : List Bool) (text : List Char) :
    coverage word left done text = done.reverse ++ coverage word left [] text := by
  induction text generalizing left done with
  | nil => cases left <;> simp [coverage]
  | cons c rest ih =>
    cases left with
    | succ left => simp only [coverage]; rw [ih, ih left [_]]; simp
    | zero =>
      simp only [coverage]
      split
      next => rw [ih, ih _ [_]]; simp
      next => rw [ih, ih _ [_]]; simp

theorem coverage_inside (left : Nat) (c : Char) (rest : List Char) :
    coverage word (left + 1) [] (c :: rest) = true :: coverage word left [] rest := by
  rw [coverage, coverage_done]
  rfl

theorem coverage_cons (c : Char) (rest : List Char) :
    coverage word 0 [] (c :: rest) =
      if word <+: c :: rest then true :: coverage word (word.length - 1) [] rest
      else false :: coverage word 0 [] rest := by
  have mark (left : Nat) (bit : Bool) :
      coverage word left [bit] rest = bit :: coverage word left [] rest := coverage_done word left _ rest
  rw [coverage, mark, mark]
  simp only [List.isPrefixOf_iff_prefix]

theorem length_coverage (word : List Char) (left : Nat) (text : List Char) :
    (coverage word left [] text).length = text.length := by
  induction text generalizing left with
  | nil => cases left <;> rfl
  | cons c rest ih =>
    cases left with
    | succ left => rw [coverage_inside, List.length_cons, ih, List.length_cons]
    | zero =>
      rw [coverage_cons]
      split
      next => rw [List.length_cons, ih, List.length_cons]
      next => rw [List.length_cons, ih, List.length_cons]

theorem coverage_left {left : Nat} {text : List Char} {place : Nat} (inside : place < left)
    (here : place < text.length) : (coverage word left [] text)[place]? = some true := by
  induction text generalizing left place with
  | nil => cases here
  | cons c rest ih =>
    obtain ⟨left, rfl⟩ := Nat.exists_eq_succ_of_ne_zero (n := left) (by omega)
    rw [coverage_inside]
    cases place with
    | zero => rfl
    | succ place =>
      exact ih (Nat.lt_of_succ_lt_succ inside) (Nat.lt_of_succ_lt_succ here)

theorem within_of_coverage (nonempty : word ≠ []) {left : Nat} {text : List Char} {place : Nat}
    (marked : (coverage word left [] text)[place]? = some true) :
    place < left ∨ Within word text (coverage word left [] text) place := by
  induction text generalizing left place with
  | nil => cases left <;> cases marked
  | cons c rest ih =>
    cases left with
    | succ left =>
      rw [coverage_inside] at marked ⊢
      cases place with
      | zero => exact Or.inl (Nat.succ_pos left)
      | succ place => exact (ih marked).imp Nat.succ_lt_succ fun within => within.cons c true
    | zero =>
      rw [coverage_cons] at marked ⊢
      split at marked
      next occurs =>
        rw [if_pos occurs]
        right
        have size := occurs.length_le
        have positive := List.length_pos_iff.2 nonempty
        rw [List.length_cons] at size
        -- the places of the occurrence that begins here
        have whole : ∀ i < word.length,
            (true :: coverage word (word.length - 1) [] rest)[i]? = some true := by
          intro i inside
          cases i with
          | zero => rfl
          | succ i => exact coverage_left (by omega) (by omega)
        have here (inside : place < word.length) : Within word (c :: rest)
            (true :: coverage word (word.length - 1) [] rest) place :=
          ⟨0, Nat.zero_le place, by omega, occurs, fun i _ high => whole i (by omega)⟩
        cases place with
        | zero => exact here positive
        | succ place =>
          rcases ih marked with inside | within
          · exact here (by omega)
          · exact within.cons c true
      next past =>
        rw [if_neg past]
        cases place with
        | zero => cases marked
        | succ place =>
          exact (ih marked).imp (fun early => absurd early (Nat.not_lt_zero place))
            fun within => within.cons c false

/-- An occurrence is covered at its first place, be it by the occurrence before it. -/
theorem coverage_of_occurs (nonempty : word ≠ []) {left : Nat} {text : List Char} {start : Nat}
    (occurs : word <+: text.drop start) : (coverage word left [] text)[start]? = some true := by
  induction text generalizing left start with
  | nil =>
    rw [List.drop_nil, List.prefix_nil] at occurs
    exact absurd occurs nonempty
  | cons c rest ih =>
    cases left with
    | succ left =>
      rw [coverage_inside]
      cases start with
      | zero => rfl
      | succ start => exact ih occurs
    | zero =>
      rw [coverage_cons]
      cases start with
      | zero =>
        rw [List.drop_zero] at occurs
        rw [if_pos occurs]
        rfl
      | succ start =>
        split
        next => exact ih occurs
        next => exact ih occurs

end

/-! ### Several words -/

theorem length_covered (words : List (List Char)) (text : List Char) :
    (covered words text).length = text.length := by
  have kept (masks : List (List Char)) (mask : List Bool) (same : mask.length = text.length) :
      (masks.foldl (fun mask word => List.zipWith or mask (coverage word 0 [] (Text.fold text)))
        mask).length = text.length := by
    induction masks generalizing mask with
    | nil => exact same
    | cons word rest ih =>
      apply ih
      rw [List.length_zipWith, length_coverage, same, Text.length_fold, Nat.min_self]
  apply kept
  rw [List.length_map, Text.length_fold]

theorem covered_iff {words : List (List Char)} {text : List Char} {place : Nat} :
    (covered words text)[place]? = some true ↔ ∃ word ∈ words, word ≠ [] ∧
      (coverage word 0 [] (Text.fold text))[place]? = some true := by
  have joined (others : List (List Char)) (mask : List Bool) (same : mask.length = text.length) :
      (others.foldl (fun mask word => List.zipWith or mask (coverage word 0 [] (Text.fold text)))
        mask)[place]? = some true ↔ mask[place]? = some true ∨
          ∃ word ∈ others, (coverage word 0 [] (Text.fold text))[place]? = some true := by
    induction others generalizing mask with
    | nil => simp
    | cons word rest ih =>
      have size : (coverage word 0 [] (Text.fold text)).length = mask.length := by
        rw [length_coverage, same, Text.length_fold]
      rw [List.foldl_cons, ih _ (by rw [List.length_zipWith, size, Nat.min_self, same]),
        List.exists_mem_cons_iff, ← or_assoc]
      refine or_congr_left ?_
      rw [List.getElem?_zipWith]
      by_cases here : place < mask.length
      · rw [List.getElem?_eq_getElem here, List.getElem?_eq_getElem (size ▸ here)]
        simp
      · have out : mask[place]? = none := List.getElem?_eq_none (by omega)
        have gone : (coverage word 0 [] (Text.fold text))[place]? = none :=
          List.getElem?_eq_none (by omega)
        rw [out, gone]
        simp
  have blank : ((Text.fold text).map fun _ => false)[place]? ≠ some true := by
    rw [List.getElem?_map]
    cases (Text.fold text)[place]? <;> simp
  rw [covered, joined _ _ (by simp [Text.length_fold]), or_iff_right blank]
  simp only [List.mem_filter, Bool.not_eq_true', List.isEmpty_eq_false_iff, and_assoc]

theorem within_of_covered {words : List (List Char)} {text : List Char} {place : Nat}
    (marked : (covered words text)[place]? = some true) :
    ∃ word ∈ words, word ≠ [] ∧ Within word (Text.fold text) (covered words text) place := by
  obtain ⟨word, known, nonempty, here⟩ := covered_iff.1 marked
  refine ⟨word, known, nonempty, ?_⟩
  have within := (within_of_coverage nonempty here).resolve_left (Nat.not_lt_zero place)
  exact within.mono fun i here => covered_iff.2 ⟨word, known, nonempty, here⟩

theorem covered_of_occurs {words : List (List Char)} {word text : List Char} (known : word ∈ words)
    (nonempty : word ≠ []) {before after : List Char} (occurs : before ++ word ++ after = Text.fold text) :
    (covered words text)[before.length]? = some true := by
  have starts : word <+: (Text.fold text).drop before.length := by
    rw [← occurs, List.append_assoc, List.drop_left]
    exact List.prefix_append word after
  exact covered_iff.2 ⟨word, known, nonempty, coverage_of_occurs nonempty starts⟩

theorem any_covered {words : List (List Char)} {text : List Char} :
    (covered words text).any id ↔ ∃ word ∈ words, word ≠ [] ∧ word <:+: Text.fold text := by
  rw [List.any_eq_true]
  constructor
  · rintro ⟨bit, inside, set⟩
    obtain rfl : bit = true := set
    obtain ⟨place, here⟩ := List.mem_iff_getElem?.1 inside
    obtain ⟨word, known, nonempty, start, -, -, occurs, -⟩ := within_of_covered here
    exact ⟨word, known, nonempty, occurs.isInfix.trans (List.drop_suffix start _).isInfix⟩
  · rintro ⟨word, known, nonempty, before, after, occurs⟩
    exact ⟨true, List.mem_of_getElem? (covered_of_occurs known nonempty occurs), rfl⟩

/-! ### Runs of equal bits -/

/-- For each character of several runs whether its run is marked. -/
def marksOf (runs : List Run) : List Bool :=
  runs.flatMap fun run => List.replicate run.text.length run.marked

theorem marksOf_append (before after : List Run) :
    marksOf (before ++ after) = marksOf before ++ marksOf after := List.flatMap_append

theorem length_marksOf (runs : List Run) : (marksOf runs).length = (textOf runs).length := by
  induction runs with
  | nil => rfl
  | cons run rest ih =>
    rw [marksOf, List.flatMap_cons, List.length_append, List.length_replicate, textOf_cons,
      List.length_append, ← ih]
    rfl

/-- Runs that have text and take turns. -/
structure Tidy (runs : List Run) : Prop where
  solid : ∀ run ∈ runs, run.text ≠ []
  turns : TakeTurns runs

/-- Runs that were gathered back to front, each with its text back to front. -/
def turned (done : List Run) : List Run :=
  (done.map fun run => { run with text := run.text.reverse }).reverse

theorem turned_cons (run : Run) (done : List Run) :
    turned (run :: done) = turned done ++ [{ run with text := run.text.reverse }] := by
  rw [turned, List.map_cons, List.reverse_cons, ← turned]

theorem textOf_turned (run : Run) (done : List Run) :
    textOf (turned (run :: done)) = textOf (turned done) ++ run.text.reverse := by
  rw [turned_cons, textOf_append]
  exact congrArg _ (List.append_nil _)

theorem marksOf_turned (run : Run) (done : List Run) : marksOf (turned (run :: done)) =
    marksOf (turned done) ++ List.replicate run.text.length run.marked := by
  rw [turned_cons, marksOf_append]
  simp [marksOf]

theorem Tidy.turned {done : List Run} (tidy : Tidy done) : Tidy (turned done) := by
  constructor
  · intro run known
    obtain ⟨old, inside, rfl⟩ := List.mem_map.1 (List.mem_reverse.1 known)
    exact fun empty => tidy.solid old inside (List.reverse_eq_nil_iff.1 empty)
  · rw [TakeTurns, Highlighted.turned, List.isChain_reverse, List.isChain_map]
    exact tidy.turns.imp fun _ _ other => other.symm

/-- Grouping keeps the text and the bits, and puts equal bits that touch into one run. -/
structure Groups (done : List Run) (pairs : List (Char × Bool)) (runs : List Run) : Prop where
  tidy : Tidy runs
  text : textOf runs = textOf (turned done) ++ pairs.map Prod.fst
  marks : marksOf runs = marksOf (turned done) ++ pairs.map Prod.snd

/-- The next character begins a run or makes the last one longer, so the runs so far hold it. -/
theorem Groups.step {done next : List Run} {c : Char} {marked : Bool} {pairs : List (Char × Bool)}
    {runs : List Run} (rest : Groups next pairs runs)
    (text : textOf (turned next) = textOf (turned done) ++ [c])
    (marks : marksOf (turned next) = marksOf (turned done) ++ [marked]) :
    Groups done ((c, marked) :: pairs) runs := by
  refine ⟨rest.tidy, ?_, ?_⟩
  · rw [rest.text, text, List.append_assoc]; rfl
  · rw [rest.marks, marks, List.append_assoc]; rfl

theorem groups_group {done : List Run} (tidy : Tidy done) (pairs : List (Char × Bool)) :
    Groups done pairs (group done pairs) := by
  fun_induction group done pairs with
  | case1 done => exact ⟨tidy.turned, (List.append_nil _).symm, (List.append_nil _).symm⟩
  | case2 c rest run before ih =>
    -- the last run takes the character
    refine (ih ⟨?_, ?_⟩).step ?_ ?_
    · exact List.forall_mem_cons.2 ⟨List.cons_ne_nil _ _, (List.forall_mem_cons.1 tidy.solid).2⟩
    · have turns := tidy.turns
      cases before with
      | nil => exact List.isChain_singleton _
      | cons other before =>
        exact List.isChain_cons_cons.2 (List.isChain_cons_cons.1 turns)
    · rw [textOf_turned, textOf_turned, List.reverse_cons, List.append_assoc]
    · rw [marksOf_turned, marksOf_turned, List.length_cons, List.replicate_succ', List.append_assoc]
  | case3 c marked rest run before other ih =>
    refine (ih ⟨?_, ?_⟩).step (textOf_turned _ _) (marksOf_turned _ _)
    · exact List.forall_mem_cons.2 ⟨List.cons_ne_nil _ _, tidy.solid⟩
    · exact List.isChain_cons_cons.2 ⟨Ne.symm other, tidy.turns⟩
  | case4 c marked rest ih =>
    refine (ih ⟨?_, List.isChain_singleton _⟩).step (textOf_turned _ _) (marksOf_turned _ _)
    exact List.forall_mem_singleton.2 (List.cons_ne_nil _ _)

/-! ### Matches of words -/

/-- What is said of the runs of a text with the occurrences of words: they have the text, a run is
marked where the words cover it, and two runs that touch differ. -/
structure Matches (words : List (List Char)) (text : List Char) (runs : List Run) : Prop where
  tidy : Tidy runs
  marks : marksOf runs = covered words text
  whole : textOf runs = text

theorem ofWords?_eq (words : List (List Char)) (text : List Char) :
    ofWords? words text = if (covered words text).any id then
      some ⟨group [] (text.zip (covered words text))⟩ else none := rfl

theorem ofWords?_eq_none {words : List (List Char)} {text : List Char} :
    ofWords? words text = none ↔ ∀ word ∈ words, word ≠ [] → ¬ word <:+: Text.fold text := by
  rw [ofWords?_eq]
  split
  next found =>
    obtain ⟨word, known, nonempty, occurs⟩ := any_covered.1 found
    exact iff_of_false nofun fun free => free word known nonempty occurs
  next missed =>
    refine iff_of_true rfl fun word known nonempty occurs => missed ?_
    exact any_covered.2 ⟨word, known, nonempty, occurs⟩

theorem exists_occurrence {words : List (List Char)} {text : List Char} {found : Highlighted}
    (made : ofWords? words text = some found) :
    ∃ word ∈ words, word ≠ [] ∧ word <:+: Text.fold text := by
  by_contra free
  push Not at free
  rw [ofWords?_eq_none.2 free] at made
  cases made

theorem matches_ofWords? {words : List (List Char)} {text : List Char} {found : Highlighted}
    (made : ofWords? words text = some found) : Matches words text found.runs := by
  rw [ofWords?_eq] at made
  split at made
  next =>
    obtain rfl := Option.some.inj made
    have size := length_covered words text
    have tidy : Tidy [] := ⟨nofun, List.isChain_nil⟩
    have groups := groups_group tidy (text.zip (covered words text))
    refine ⟨groups.tidy, ?_, ?_⟩
    · exact groups.marks.trans (List.map_snd_zip size.le)
    · exact groups.text.trans (List.map_fst_zip size.ge)
  next => cases made

/-- Places that are covered throughout, one of them in a stretch with nothing covered right before
and right behind it, all lie in the stretch. -/
theorem stays_inside {before inside after : List Bool} {start stop place : Nat}
    (edge : before.getLast? ≠ some true) (border : after.head? ≠ some true)
    (whole : ∀ i, start ≤ i → i < stop → (before ++ inside ++ after)[i]? = some true)
    (low : start ≤ before.length + place) (high : before.length + place < stop)
    (here : place < inside.length) :
    before.length ≤ start ∧ stop ≤ before.length + inside.length := by
  constructor
  · by_contra early
    have last := whole (before.length - 1) (by omega) (by omega)
    rw [List.append_assoc, List.getElem?_append_left (by omega), ← List.getLast?_eq_getElem?] at last
    exact edge last
  · by_contra late
    have first := whole (before.length + inside.length) (by omega) (by omega)
    rw [List.getElem?_append_right (by rw [List.length_append]), List.length_append, Nat.sub_self,
      ← List.head?_eq_getElem?] at first
    exact border first

section
variable {before after : List Run} {run : Run}

theorem Tidy.edge (tidy : Tidy (before ++ run :: after)) (marked : run.marked) :
    (marksOf before).getLast? ≠ some true := by
  rcases List.eq_nil_or_concat before with rfl | ⟨early, last, rfl⟩
  · nofun
  · have solid := tidy.solid last (by simp)
    have turns := tidy.turns
    rw [TakeTurns, List.concat_eq_append, List.append_assoc, List.singleton_append] at turns
    have other := (List.isChain_cons_cons.1 turns.right_of_append).1
    rw [List.concat_eq_append, marksOf_append]
    simp_all [marksOf, List.getLast?_append, List.getLast?_replicate]

theorem Tidy.border (tidy : Tidy (before ++ run :: after)) (marked : run.marked) :
    (marksOf after).head? ≠ some true := by
  cases after with
  | nil => nofun
  | cons next late =>
    have solid := tidy.solid next (by simp)
    have other := (List.isChain_cons_cons.1 tidy.turns.right_of_append).1
    simp_all [marksOf, List.head?_append, List.head?_replicate]

theorem Matches.covered_run {words : List (List Char)} {text : List Char}
    (matched : Matches words text (before ++ run :: after)) (marked : run.marked) :
    covered words text =
      marksOf before ++ List.replicate run.text.length true ++ marksOf after := by
  rw [← matched.marks, marksOf_append, List.append_assoc, ← marked]
  rfl

/-- Each place of a match lies in an occurrence of a word that lies in the match. -/
theorem Matches.occurrence {words : List (List Char)} {text : List Char}
    (matched : Matches words text (before ++ run :: after)) (marked : run.marked) {place : Nat}
    (here : place < run.text.length) :
    ∃ word ∈ words, word ≠ [] ∧ ∃ early late, Text.fold run.text = early ++ word ++ late ∧
      early.length ≤ place ∧ place < early.length + word.length := by
  have marks := matched.covered_run marked
  have size := length_marksOf before
  have set : (covered words text)[(marksOf before).length + place]? = some true := by
    rw [marks, List.append_assoc, List.getElem?_append_right (Nat.le_add_right _ _),
      Nat.add_sub_cancel_left, List.getElem?_append_left (by simpa using here)]
    simp [here]
  obtain ⟨word, known, nonempty, start, low, high, occurs, whole⟩ := within_of_covered set
  rw [marks] at whole
  obtain ⟨first, last⟩ := stays_inside (matched.tidy.edge marked) (matched.tidy.border marked) whole
    low high (by simpa using here)
  rw [List.length_replicate] at last
  -- the occurrence begins so many characters into the run
  obtain ⟨skipped, rfl⟩ := Nat.exists_eq_add_of_le first
  have folded : Text.fold text =
      Text.fold (textOf before) ++ (Text.fold run.text ++ Text.fold (textOf after)) := by
    rw [← matched.whole, textOf_append, textOf_cons, Text.fold_append, Text.fold_append]
  have lengths : (Text.fold (textOf before)).length = (marksOf before).length := by
    rw [size, Text.length_fold]
  have long := Text.length_fold run.text
  rw [folded, ← lengths, ← List.drop_drop, List.drop_left,
    List.drop_append_of_le_length (by omega)] at occurs
  obtain ⟨late, split⟩ := List.prefix_of_prefix_length_le occurs (List.prefix_append _ _)
    (by rw [List.length_drop]; omega)
  refine ⟨word, known, nonempty, (Text.fold run.text).take skipped, late, ?_, ?_, ?_⟩
  · rw [List.append_assoc, split, List.take_append_drop]
  · rw [List.length_take]; omega
  · rw [List.length_take]; omega

end

end Highlighted

end SearchRelay
