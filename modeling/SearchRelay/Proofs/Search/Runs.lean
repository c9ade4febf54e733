import SearchRelay.Proofs.Text.Bytes
import SearchRelay.Proofs.Text.Occurrence
import SearchRelay.Search.Highlight

/-!
Runs of text. Runs without text say nothing, so texts with the same runs otherwise have the same
matches at the same places, and a text that was given its marks is read back as the runs it had.
-/

namespace SearchRelay

namespace Run

/-- A match: a run that is marked and has text. -/
def isMatch (run : Run) : Bool := run.marked && !run.text.isEmpty

theorem isMatch_iff {run : Run} : run.isMatch ↔ run.marked ∧ run.text ≠ [] := by
  simp [isMatch]

end Run

namespace Highlighted

def textOf (runs : List Run) : List Char := runs.flatMap Run.text

theorem textOf_cons (run : Run) (rest : List Run) : textOf (run :: rest) = run.text ++ textOf rest :=
  List.flatMap_cons

theorem textOf_append (before after : List Run) :
    textOf (before ++ after) = textOf before ++ textOf after := List.flatMap_append

def solid (runs : List Run) : List Run := runs.filter fun run => !run.text.isEmpty

theorem solid_cons (run : Run) (rest : List Run) :
    solid (run :: rest) = if run.text = [] then solid rest else run :: solid rest := by
  rw [solid, List.filter_cons]
  cases run.text <;> rfl

theorem textOf_solid (runs : List Run) : textOf (solid runs) = textOf runs := by
  induction runs with
  | nil => rfl
  | cons run rest ih =>
    rw [solid_cons, textOf_cons]
    split
    next empty => rw [ih, empty, List.nil_append]
    next => rw [textOf_cons, ih]

/-! ### Places -/

theorem spansFrom_done (offset : Nat) (done : List (Nat × Nat)) (runs : List Run) :
    spansFrom offset done runs = done.reverse ++ spansFrom offset [] runs := by
  induction runs generalizing offset done with
  | nil => simp [spansFrom]
  | cons run rest ih =>
    simp only [spansFrom]
    split
    next => rw [ih, ih _ [_]]; simp
    next => exact ih _ _

theorem spansFrom_cons (offset : Nat) (run : Run) (rest : List Run) :
    spansFrom offset [] (run :: rest) =
      (if run.isMatch then [(offset, offset + Text.byteLength run.text)] else []) ++
        spansFrom (offset + Text.byteLength run.text) [] rest := by
  have unfolded : spansFrom offset [] (run :: rest) = if run.isMatch then
      spansFrom (offset + Text.byteLength run.text) [(offset, offset + Text.byteLength run.text)] rest
    else spansFrom (offset + Text.byteLength run.text) [] rest := rfl
  rw [unfolded, spansFrom_done]
  split
  next => rfl
  next => rfl

theorem spansFrom_solid (offset : Nat) (runs : List Run) :
    spansFrom offset [] (solid runs) = spansFrom offset [] runs := by
  induction runs generalizing offset with
  | nil => rfl
  | cons run rest ih =>
    rw [solid_cons, spansFrom_cons]
    split
    next empty => simp [Run.isMatch, empty, Text.byteLength, ih]
    next => rw [spansFrom_cons, ih]

theorem mem_spansFrom {offset : Nat} {runs : List Run} {place : Nat × Nat} :
    place ∈ spansFrom offset [] runs ↔ ∃ before run after, runs = before ++ run :: after ∧
      run.isMatch ∧ place = (offset + Text.byteLength (textOf before),
        offset + Text.byteLength (textOf before) + Text.byteLength run.text) := by
  induction runs generalizing offset with
  | nil => simp [spansFrom]
  | cons run rest ih =>
    rw [spansFrom_cons, List.mem_append, ih]
    constructor
    · rintro (first | ⟨before, found, after, rfl, matched, rfl⟩)
      · split at first
        next matched =>
          obtain rfl := List.mem_singleton.1 first
          exact ⟨[], run, rest, rfl, matched, rfl⟩
        next => cases first
      · refine ⟨run :: before, found, after, rfl, matched, ?_⟩
        rw [textOf_cons, Text.byteLength_append, Nat.add_assoc offset]
    · rintro ⟨before, found, after, split, matched, rfl⟩
      cases before with
      | nil =>
        obtain ⟨rfl, rfl⟩ := List.cons.inj split
        refine Or.inl ?_
        rw [if_pos matched]
        exact List.mem_singleton_self _
      | cons first before =>
        obtain ⟨rfl, rfl⟩ := List.cons.inj split
        refine Or.inr ⟨before, found, after, rfl, matched, ?_⟩
        rw [textOf_cons, Text.byteLength_append, ← Nat.add_assoc offset]

/-- The bytes at the places of the matches are those of their texts. -/
theorem slices_spansFrom (before : Text.Bytes) (runs : List Run) :
    (spansFrom before.length [] runs).map (Text.slice (before ++ Text.encode (textOf runs))) =
      (runs.filter Run.isMatch).map fun run => Text.encode run.text := by
  induction runs generalizing before with
  | nil => rfl
  | cons run rest ih =>
    have here := Text.slice_append before (Text.encode run.text) (Text.encode (textOf rest))
    have later := ih (before ++ Text.encode run.text)
    rw [List.length_append] at later
    rw [textOf_cons, Text.encode_append, ← List.append_assoc, spansFrom_cons, List.map_append,
      Text.byteLength_eq, later, List.filter_cons]
    split
    next => rw [List.map_singleton, here]; rfl
    next => rfl

/-! ### Marks -/

theorem unbordered_startMark : Text.Unbordered startMark := by decide
theorem unbordered_endMark : Text.Unbordered endMark := by decide

theorem dropEnds_free {text : List Char} (free : ¬ endMark <:+: text) : dropEnds text = text := by
  rw [dropEnds]
  split
  next => rfl
  next before after found => rw [Text.cut?_eq_none free] at found; cases found

theorem runsOf_free {text : List Char} (free : ¬ startMark <:+: text) :
    runsOf text = [.plain (dropEnds text)] := by
  rw [runsOf]
  split
  next => rfl
  next before inner found => rw [Text.cut?_eq_none free] at found; cases found

/-- A match with its marks is read as such, and what follows is read on its own. -/
theorem runsOf_mark {before body : List Char} (starts : ¬ startMark <:+: before)
    (ends : ¬ endMark <:+: before) (inside : ¬ endMark <:+: body) (rest : List Char) :
    runsOf (before ++ runWithMarks (.mark body) ++ rest) =
      .plain before :: .mark body :: runsOf rest := by
  have start : Text.cut? startMark (before ++ runWithMarks (.mark body) ++ rest) =
      some (before, body ++ endMark ++ rest) := by
    rw [← Text.cut?_append unbordered_startMark starts]
    simp [runWithMarks, Run.mark]
  have ending := Text.cut?_append unbordered_endMark inside rest
  rw [runsOf]
  split
  next missed => rw [start] at missed; cases missed
  next found =>
    obtain ⟨rfl, rfl⟩ := Prod.mk.inj (Option.some.inj (start.symm.trans found))
    rw [dropEnds_free ends]
    split
    next missed => rw [ending] at missed; cases missed
    next ended =>
      obtain ⟨rfl, rfl⟩ := Prod.mk.inj (Option.some.inj (ending.symm.trans ended))
      rfl

/-- A run whose text cannot be taken for a mark. -/
structure Unmistakable (run : Run) : Prop where
  ends : ¬ endMark <:+: run.text
  starts : run.marked = false → ¬ startMark <:+: run.text

/-- Matches and other runs take turns. -/
def TakeTurns (runs : List Run) : Prop := runs.IsChain fun a b => a.marked ≠ b.marked

/-- Runs that are written with marks are read back. Where a text begins with a match or ends with
one, a run without text is read as well. -/
theorem runsOf_withMarks {runs : List Run} (turns : TakeTurns runs)
    (clear : ∀ run ∈ runs, Unmistakable run) :
    solid (runsOf (runs.flatMap runWithMarks)) = solid runs := by
  match runs with
  | [] =>
    rw [List.flatMap_nil, runsOf_free (by decide), dropEnds_free (by decide)]
    rfl
  | [⟨false, text⟩] =>
    obtain ⟨ends, starts⟩ := clear _ (List.mem_singleton_self _)
    have written : [Run.mk false text].flatMap runWithMarks = text := List.append_nil text
    rw [written, runsOf_free (starts rfl), dropEnds_free ends]
    rfl
  | ⟨false, text⟩ :: ⟨true, body⟩ :: rest =>
    obtain ⟨first, others⟩ := List.forall_mem_cons.1 clear
    obtain ⟨second, others⟩ := List.forall_mem_cons.1 others
    -- the first two runs are read as they are, and the others on their own
    have read := runsOf_mark (first.starts rfl) first.ends second.ends (rest.flatMap runWithMarks)
    have later : solid (runsOf (rest.flatMap runWithMarks)) = solid rest :=
      runsOf_withMarks turns.tail.tail others
    have written : (⟨false, text⟩ :: ⟨true, body⟩ :: rest).flatMap runWithMarks =
        text ++ runWithMarks (.mark body) ++ rest.flatMap runWithMarks :=
      (List.append_assoc text _ _).symm
    rw [written, read]
    simp only [Run.plain, Run.mark, solid_cons, later]
  | ⟨true, body⟩ :: rest =>
    obtain ⟨first, others⟩ := List.forall_mem_cons.1 clear
    -- a run without text is read before the match
    have read : runsOf (runWithMarks ⟨true, body⟩ ++ rest.flatMap runWithMarks) =
        .plain [] :: .mark body :: runsOf (rest.flatMap runWithMarks) :=
      @runsOf_mark [] body (by decide) (by decide) first.ends _
    have later : solid (runsOf (rest.flatMap runWithMarks)) = solid rest :=
      runsOf_withMarks turns.tail others
    rw [List.flatMap_cons, read]
    simp only [Run.plain, Run.mark, solid_cons, later, if_true]
  | ⟨false, _⟩ :: ⟨false, _⟩ :: _ => exact absurd rfl (List.isChain_cons_cons.1 turns).1

theorem parse_withMarks {highlighted : Highlighted} (turns : TakeTurns highlighted.runs)
    (clear : ∀ run ∈ highlighted.runs, Unmistakable run) :
    (parse highlighted.withMarks).plain = highlighted.plain ∧
      (parse highlighted.withMarks).spans = highlighted.spans := by
  have same := runsOf_withMarks turns clear
  constructor
  · have text := congrArg textOf same
    rwa [textOf_solid, textOf_solid] at text
  · have places := congrArg (spansFrom 0 []) same
    rwa [spansFrom_solid, spansFrom_solid] at places

end Highlighted

end SearchRelay
