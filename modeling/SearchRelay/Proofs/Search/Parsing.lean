import SearchRelay.Proofs.Search.Marking

/-!
Reading marks from any text. Marks may be missing, stray, nested or next to each other: what is read
is the text without some of its marks, its matches lie in order and hold whole characters, and the
markup that is cut out by their places is never cut where there is nothing to cut.
-/

namespace SearchRelay

namespace Text

/-- Cuts a text at a place in bytes. Nothing if that lies within a character or behind the text. -/
def cutAt? : Nat → List Char → Option (List Char × List Char)
  | 0, text => some ([], text)
  | _ + 1, [] => none
  | place + 1, c :: rest =>
    if c.utf8Size ≤ place + 1 then
      (cutAt? (place + 1 - c.utf8Size) rest).map fun (before, after) => (c :: before, after)
    else none

/-- The text from one place in bytes to another. Nothing if the text cannot be cut there, or if the
second place lies before the first. -/
def between? (text : List Char) (first last : Nat) : Option (List Char) :=
  if last < first then none
  else (cutAt? first text).bind fun (_, rest) => (cutAt? (last - first) rest).map Prod.fst

theorem byteLength_cons (c : Char) (rest : List Char) :
    byteLength (c :: rest) = c.utf8Size + byteLength rest := by
  have size : byteLength [c] = c.utf8Size := Nat.zero_add _
  rw [← size]
  exact byteLength_append [c] rest

theorem cutAt?_append (before after : List Char) :
    cutAt? (byteLength before) (before ++ after) = some (before, after) := by
  induction before with
  | nil =>
    have start : byteLength [] = 0 := rfl
    rw [start, List.nil_append, cutAt?]
  | cons c before ih =>
    obtain ⟨place, here⟩ : ∃ place, byteLength (c :: before) = place + 1 :=
      Nat.exists_eq_add_one.2 (byteLength_pos (List.cons_ne_nil c before))
    have split := byteLength_cons c before
    have rest : place + 1 - c.utf8Size = byteLength before := by omega
    rw [here, List.cons_append, cutAt?, if_pos (by omega), rest, ih]
    rfl

theorem between?_append (before inside after : List Char) :
    between? (before ++ inside ++ after) (byteLength before)
      (byteLength before + byteLength inside) = some inside := by
  rw [between?, if_neg (by omega), List.append_assoc, cutAt?_append, Nat.add_sub_cancel_left]
  exact congrArg (Option.map Prod.fst) (cutAt?_append inside after)

theorem between?_append_end (before inside : List Char) :
    between? (before ++ inside) (byteLength before) (byteLength (before ++ inside)) = some inside := by
  have cut := between?_append before inside []
  rwa [List.append_nil, ← byteLength_append] at cut

end Text

namespace Highlighted

/-- The markup of a text with these matches, where everything is cut out by its places. What stands
before `place` has been written. -/
def markupFrom? (text : List Char) (place : Nat) : List (Nat × Nat) → Option (List Char)
  | [] => (Text.between? text place (Text.byteLength text)).map escape
  | span :: rest => do
    let before ← Text.between? text place span.1
    let inside ← Text.between? text span.1 span.2
    let later ← markupFrom? text span.2 rest
    return escape before ++ openTag ++ escape inside ++ closeTag ++ later

/-- The second text is the first one with some marks left out and nothing else changed. -/
inductive WithoutMarks : List Char → List Char → Prop where
  | nothing : WithoutMarks [] []
  | keep {text plain} (c : Char) (rest : WithoutMarks text plain) :
      WithoutMarks (c :: text) (c :: plain)
  | leaveOut {mark text plain} (known : mark = startMark ∨ mark = endMark)
      (rest : WithoutMarks text plain) : WithoutMarks (mark ++ text) plain

/-- Places of matches in a text: none is empty, they follow each other, and each begins and ends
between two characters of the text. -/
structure InPlace (text : List Char) (spans : List (Nat × Nat)) : Prop where
  nonempty : ∀ span ∈ spans, span.1 < span.2
  ordered : spans.Pairwise fun a b => a.2 ≤ b.1
  whole : ∀ span ∈ spans, Text.Boundary text span.1 ∧ Text.Boundary text span.2
  inside : ∀ span ∈ spans, span.2 ≤ Text.byteLength text

/-- A text in which no mark occurs. -/
structure Unmarked (text : List Char) : Prop where
  starts : ¬ startMark <:+: text
  ends : ¬ endMark <:+: text

/-! ### What is left out -/

namespace WithoutMarks

theorem append {text plain more other : List Char} (first : WithoutMarks text plain)
    (second : WithoutMarks more other) : WithoutMarks (text ++ more) (plain ++ other) := by
  induction first with
  | nothing => exact second
  | keep c _ ih => exact .keep c ih
  | leaveOut known _ ih =>
    rw [List.append_assoc]
    exact .leaveOut known ih

theorem refl (text : List Char) : WithoutMarks text text := by
  induction text with
  | nil => exact .nothing
  | cons c text ih => exact .keep c ih

end WithoutMarks

theorem withoutMarks_dropEnds (text : List Char) : WithoutMarks text (dropEnds text) := by
  fun_induction dropEnds text with
  | case1 => exact .refl _
  | case2 text before after found ih =>
    rw [Text.cut?_eq found, List.append_assoc]
    exact (WithoutMarks.refl before).append (.leaveOut (Or.inr rfl) ih)

theorem withoutMarks_runsOf (text : List Char) : WithoutMarks text (textOf (runsOf text)) := by
  fun_induction runsOf text with
  | case1 text free =>
    rw [textOf_cons]
    exact (List.append_nil _).symm ▸ withoutMarks_dropEnds text
  | case2 text before inner found endless =>
    -- the last match goes on to the end of the text
    rw [Text.cut?_eq found, List.append_assoc]
    have last : textOf [.plain (dropEnds before), .mark inner] = dropEnds before ++ inner := by
      simp [textOf, Run.plain, Run.mark]
    rw [last]
    exact (withoutMarks_dropEnds before).append (.leaveOut (Or.inl rfl) (.refl inner))
  | case3 text before inner found body rest ended ih =>
    rw [Text.cut?_eq found, Text.cut?_eq ended, List.append_assoc, List.append_assoc, textOf_cons,
      textOf_cons]
    exact (withoutMarks_dropEnds before).append
      (.leaveOut (Or.inl rfl) ((WithoutMarks.refl body).append (.leaveOut (Or.inr rfl) ih)))

/-! ### The places of matches -/

theorem le_of_mem_spansFrom {offset : Nat} {runs : List Run} {span : Nat × Nat}
    (known : span ∈ spansFrom offset [] runs) : offset ≤ span.1 := by
  obtain ⟨before, run, after, -, -, rfl⟩ := mem_spansFrom.1 known
  exact Nat.le_add_right _ _

theorem ordered_spansFrom (offset : Nat) (runs : List Run) :
    (spansFrom offset [] runs).Pairwise fun a b => a.2 ≤ b.1 := by
  induction runs generalizing offset with
  | nil => exact List.Pairwise.nil
  | cons run rest ih =>
    rw [spansFrom_cons]
    split
    next => exact List.pairwise_cons.2 ⟨fun span later => le_of_mem_spansFrom later, ih _⟩
    next => exact ih _

theorem inPlace (highlighted : Highlighted) : InPlace highlighted.plain highlighted.spans := by
  have parts {before after : List Run} {run : Run} (split : highlighted.runs = before ++ run :: after) :
      highlighted.plain = textOf before ++ run.text ++ textOf after := by
    rw [plain, ← textOf, split, textOf_append, textOf_cons, List.append_assoc]
  constructor
  case nonempty =>
    intro span known
    obtain ⟨before, run, after, -, isMatch, first, last⟩ := exists_run known
    have long := Text.byteLength_pos (Run.isMatch_iff.1 isMatch).2
    omega
  case ordered => exact ordered_spansFrom 0 highlighted.runs
  case whole =>
    intro span known
    obtain ⟨before, run, after, split, -, first, last⟩ := exists_run known
    refine ⟨⟨textOf before, run.text ++ textOf after, ?_, first⟩,
      ⟨textOf before ++ run.text, textOf after, parts split, ?_⟩⟩
    · rw [parts split, List.append_assoc]
    · rw [last, Text.byteLength_append]
  case inside =>
    intro span known
    obtain ⟨before, run, after, split, -, first, last⟩ := exists_run known
    rw [parts split, Text.byteLength_append, Text.byteLength_append]
    omega

/-! ### Cutting at the places -/

theorem escape_append (before after : List Char) :
    escape (before ++ after) = escape before ++ escape after := List.flatMap_append

/-- Cutting never fails: `done` is written, `pending` is the text since the last match, and the runs
are what follows. -/
theorem markupFrom?_spansFrom {text : List Char} {runs : List Run} (done pending : List Char)
    (whole : text = done ++ pending ++ textOf runs) :
    markupFrom? text (Text.byteLength done)
        (spansFrom (Text.byteLength (done ++ pending)) [] runs) =
      some (escape pending ++ runs.flatMap runMarkup) := by
  induction runs generalizing done pending with
  | nil =>
    obtain rfl : text = done ++ pending := whole.trans (List.append_nil _)
    rw [spansFrom, List.reverse_nil, markupFrom?, Text.between?_append_end]
    exact congrArg some (List.append_nil _).symm
  | cons run rest ih =>
    have markup : runMarkup run =
        if run.isMatch then openTag ++ escape run.text ++ closeTag else escape run.text := rfl
    rw [textOf_cons, ← List.append_assoc] at whole
    rw [spansFrom_cons, ← Text.byteLength_append, List.flatMap_cons, markup]
    by_cases matched : run.isMatch
    · have before : Text.between? text (Text.byteLength done) (Text.byteLength (done ++ pending)) =
          some pending := by
        rw [whole, List.append_assoc (done ++ pending), Text.byteLength_append]
        exact Text.between?_append done pending _
      have inside : Text.between? text (Text.byteLength (done ++ pending))
          (Text.byteLength (done ++ pending ++ run.text)) = some run.text := by
        rw [whole, Text.byteLength_append (done ++ pending)]
        exact Text.between?_append (done ++ pending) run.text _
      have later := ih (done ++ pending ++ run.text) [] (by rw [List.append_nil, whole])
      rw [List.append_nil] at later
      rw [if_pos matched, if_pos matched, List.singleton_append, markupFrom?, before, inside, later]
      simp [escape]
    · have later := ih done (pending ++ run.text) (by rw [← List.append_assoc, whole])
      rw [← List.append_assoc] at later
      rw [if_neg matched, if_neg matched, List.nil_append, later, escape_append, List.append_assoc]

theorem markupFrom?_spans (highlighted : Highlighted) :
    markupFrom? highlighted.plain 0 highlighted.spans = some highlighted.toMarkup :=
  markupFrom?_spansFrom [] [] rfl

/-! ### Matches in their marks -/

theorem spansFrom_append (offset : Nat) (before after : List Run) :
    spansFrom offset [] (before ++ after) =
      spansFrom offset [] before ++ spansFrom (offset + Text.byteLength (textOf before)) [] after := by
  induction before generalizing offset with
  | nil => rfl
  | cons run before ih =>
    rw [List.cons_append, spansFrom_cons, spansFrom_cons, ih, textOf_cons, Text.byteLength_append,
      List.append_assoc, Nat.add_assoc]

theorem length_spansFrom (offset : Nat) (runs : List Run) :
    (spansFrom offset [] runs).length = runs.countP Run.isMatch := by
  induction runs generalizing offset with
  | nil => rfl
  | cons run rest ih =>
    rw [spansFrom_cons, List.length_append, ih, List.countP_cons, Nat.add_comm]
    split <;> rfl

/-- A text, and behind it matches, each with the text that follows it. -/
def turns (lead : List Char) (parts : List (List Char × List Char)) : List Run :=
  .plain lead :: parts.flatMap fun part => [.mark part.1, .plain part.2]

section
variable {lead : List Char} {parts : List (List Char × List Char)}

theorem turns_cons (lead : List Char) (part : List Char × List Char)
    (rest : List (List Char × List Char)) :
    turns lead (part :: rest) = .plain lead :: .mark part.1 :: turns part.2 rest := rfl

theorem turns_append (lead : List Char) (before after : List (List Char × List Char)) :
    turns lead (before ++ after) =
      turns lead before ++ after.flatMap fun part => [.mark part.1, .plain part.2] := by
  rw [turns, List.flatMap_append]
  rfl

theorem textOf_turns : textOf (turns lead parts) = lead ++ parts.flatMap fun part => part.1 ++ part.2 := by
  rw [turns, textOf_cons, textOf, List.flatMap_assoc]
  simp [Run.plain, Run.mark]

theorem flatMap_turns : (turns lead parts).flatMap runWithMarks =
    lead ++ parts.flatMap fun part => startMark ++ part.1 ++ endMark ++ part.2 := by
  rw [turns, List.flatMap_cons, List.flatMap_assoc]
  simp [runWithMarks, Run.plain, Run.mark]

theorem takeTurns_turns : TakeTurns (turns lead parts) := by
  induction parts generalizing lead with
  | nil => exact List.isChain_singleton _
  | cons part rest ih =>
    rw [turns_cons]
    have next : TakeTurns (.mark part.1 :: turns part.2 rest) :=
      List.isChain_cons_cons.2 ⟨Bool.noConfusion, ih⟩
    exact List.isChain_cons_cons.2 ⟨Bool.noConfusion, next⟩

theorem countP_turns (nonempty : ∀ part ∈ parts, part.1 ≠ []) :
    (turns lead parts).countP Run.isMatch = parts.length := by
  induction parts generalizing lead with
  | nil => rfl
  | cons part rest ih =>
    obtain ⟨first, others⟩ := List.forall_mem_cons.1 nonempty
    have matched : (Run.mark part.1).isMatch := Run.isMatch_iff.2 ⟨rfl, first⟩
    rw [turns_cons, List.countP_cons_of_neg (by simp [Run.isMatch, Run.plain]),
      List.countP_cons_of_pos matched, ih others, List.length_cons]

/-- The match that follows some others is at the place behind them. -/
theorem getElem?_spans_turns (nonempty : ∀ part ∈ parts, part.1 ≠ [])
    {before after : List (List Char × List Char)} {part : List Char × List Char}
    (split : parts = before ++ part :: after) :
    let start := Text.byteLength (lead ++ before.flatMap fun part => part.1 ++ part.2)
    (spansFrom 0 [] (turns lead parts))[before.length]? =
      some (start, start + Text.byteLength part.1) := by
  intro start
  subst split
  obtain ⟨earlier, others⟩ := List.forall_mem_append.1 nonempty
  have matched : (Run.mark part.1).isMatch :=
    Run.isMatch_iff.2 ⟨rfl, others part List.mem_cons_self⟩
  have count : (spansFrom 0 [] (turns lead before)).length = before.length := by
    rw [length_spansFrom, countP_turns earlier]
  rw [turns_append, spansFrom_append, List.getElem?_append_right count.le, count, Nat.sub_self,
    List.flatMap_cons, List.cons_append, spansFrom_cons, if_pos matched, textOf_turns, Nat.zero_add]
  rfl

theorem unmistakable_turns (free : ∀ text ∈ lead :: parts.map Prod.snd, Unmarked text)
    (inside : ∀ part ∈ parts, ¬ endMark <:+: part.1) :
    ∀ run ∈ turns lead parts, Unmistakable run := by
  have plain {text : List Char} (unmarked : Unmarked text) : Unmistakable (.plain text) :=
    ⟨unmarked.ends, fun _ => unmarked.starts⟩
  obtain ⟨first, others⟩ := List.forall_mem_cons.1 free
  intro run known
  rcases List.mem_cons.1 known with rfl | later
  · exact plain first
  · obtain ⟨part, member, here⟩ := List.mem_flatMap.1 later
    rcases List.mem_pair.1 here with rfl | rfl
    · exact ⟨inside part member, Bool.noConfusion⟩
    · exact plain (others part.2 (List.mem_map_of_mem member))

end

/-- Whatever marks a text holds, it is read as the text without some of them, with matches that can
be cut out. Matches that stand in their marks, in a text that has no others, are read as they are. -/
theorem parse_sound (text : List Char) :
    let read := parse text
    WithoutMarks text read.plain ∧ InPlace read.plain read.spans ∧
      markupFrom? read.plain 0 read.spans = some read.toMarkup ∧
      ∀ lead parts,
        text = lead ++ parts.flatMap (fun part => startMark ++ part.1 ++ endMark ++ part.2) →
        (∀ other ∈ lead :: parts.map Prod.snd, Unmarked other) →
        (∀ part ∈ parts, part.1 ≠ [] ∧ ¬ endMark <:+: part.1) →
        read.plain = lead ++ parts.flatMap (fun part => part.1 ++ part.2) ∧
          read.spans.length = parts.length ∧
          ∀ before part after, parts = before ++ part :: after →
            let start := Text.byteLength (lead ++ before.flatMap fun part => part.1 ++ part.2)
            read.spans[before.length]? = some (start, start + Text.byteLength part.1) := by
  intro read
  refine ⟨withoutMarks_runsOf text, inPlace read, markupFrom?_spans read, ?_⟩
  intro lead parts written free proper
  have nonempty : ∀ part ∈ parts, part.1 ≠ [] := fun part known => (proper part known).1
  have clear := unmistakable_turns free fun part known => (proper part known).2
  obtain ⟨plain, spans⟩ := @parse_withMarks ⟨turns lead parts⟩ takeTurns_turns clear
  have whole : withMarks ⟨turns lead parts⟩ = text := flatMap_turns.trans written.symm
  rw [whole] at plain spans
  refine ⟨plain.trans textOf_turns, ?_, fun before part after split => ?_⟩
  · exact (congrArg List.length spans).trans
      ((length_spansFrom 0 (turns lead parts)).trans (countP_turns nonempty))
  · exact (congrArg (·[before.length]?) spans).trans (getElem?_spans_turns nonempty split)

/-- A start mark inside a match, halves of marks around the others, and letters of two bytes. -/
theorem parse_sound_halves :
    let lead := "é←".toList
    let parts := [(startMark ++ "ü".toList, []), ("←".toList, "→".toList)]
    let text := lead ++ parts.flatMap fun part => startMark ++ part.1 ++ endMark ++ part.2
    (∀ other ∈ lead :: parts.map Prod.snd, Unmarked other) ∧
      (∀ part ∈ parts, part.1 ≠ [] ∧ ¬ endMark <:+: part.1) ∧
      (parse text).plain = "é←".toList ++ startMark ++ "ü←→".toList ∧
      (parse text).spans = [(5, 29), (29, 32)] := by
  intro lead parts text
  have free : ∀ other ∈ lead :: parts.map Prod.snd, Unmarked other := by
    simp only [lead, parts, List.map_cons, List.map_nil, List.forall_mem_cons]
    exact ⟨⟨by decide, by decide⟩, ⟨by decide, by decide⟩, ⟨by decide, by decide⟩, nofun⟩
  have proper : ∀ part ∈ parts, part.1 ≠ [] ∧ ¬ endMark <:+: part.1 := by decide
  obtain ⟨-, -, -, read⟩ := parse_sound text
  obtain ⟨plain, count, places⟩ := read lead parts rfl free proper
  obtain ⟨first, second, spans⟩ := List.length_eq_two.1 count
  have one := places [] _ _ rfl
  have two := places [_] _ [] rfl
  rw [spans] at one two
  refine ⟨free, proper, plain.trans rfl, ?_⟩
  rw [spans, Option.some.inj one, Option.some.inj two]
  decide

end Highlighted

end SearchRelay
