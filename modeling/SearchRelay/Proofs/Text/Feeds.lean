import SearchRelay.Proofs.Text.Lines

/-!
Line feeds. The lines of a text give the text back, and what holds no line feed lies on the line
whose number is that of the line feeds before it.
-/

namespace SearchRelay.Text

section
variable {α : Type} [DecidableEq α] (feed : α)

theorem flatten_splitLines (pending text : List α) :
    (splitLines feed pending [] text).flatten = pending.reverse ++ text := by
  induction text generalizing pending with
  | nil => cases pending <;> simp [splitLines]
  | cons c rest ih =>
    rw [splitLines]
    split
    next => rw [splitLines_done, List.flatten_append, ih]; simp
    next => rw [ih]; simp

theorem splitLines_whole {line : List α} (whole : feed ∉ line) (pending : List α) :
    splitLines feed pending [] line =
      if pending.reverse ++ line = [] then [] else [pending.reverse ++ line] := by
  induction line generalizing pending with
  | nil => cases pending <;> simp [splitLines]
  | cons c line ih =>
    obtain ⟨different, others⟩ := not_or.1 (mt List.mem_cons.2 whole)
    rw [splitLines, if_neg (Ne.symm different), ih others]
    simp

end

theorem flatten_wholeLines (text : List Char) : (wholeLines text).flatten = text :=
  flatten_splitLines '\n' [] text

theorem wholeLines_line {line : List Char} (whole : '\n' ∉ line) (rest : List Char) :
    wholeLines (line ++ '\n' :: rest) = (line ++ ['\n']) :: wholeLines rest :=
  splitLines_line '\n' whole [] rest

theorem infix_of_mem_wholeLines {text line : List Char} (member : line ∈ wholeLines text) :
    line <:+: text := by
  have part := List.infix_of_mem_flatten member
  rwa [flatten_wholeLines] at part

/-- The lines of a text: each ends with the only line feed in it, and the last one may lack it. -/
inductive Lined : List Char → List (List Char) → Prop where
  | nothing : Lined [] []
  | last {line} (nonempty : line ≠ []) (whole : '\n' ∉ line) : Lined line [line]
  | line {line rest lines} (whole : '\n' ∉ line) (others : Lined rest lines) :
      Lined (line ++ '\n' :: rest) ((line ++ ['\n']) :: lines)

theorem Lined.ne_nil {text : List Char} {lines : List (List Char)} (lined : Lined text lines) :
    ∀ line ∈ lines, line ≠ [] := by
  induction lined with
  | nothing => exact nofun
  | last nonempty whole => exact List.forall_mem_singleton.2 nonempty
  | line whole _ ih => exact List.forall_mem_cons.2 ⟨by simp, ih⟩

theorem wholeLines_whole {line : List Char} (whole : '\n' ∉ line) :
    wholeLines line = if line = [] then [] else [line] := splitLines_whole '\n' whole []

theorem lined_wholeLines (text : List Char) : Lined text (wholeLines text) := by
  by_cases feeds : '\n' ∈ text
  · obtain ⟨line, rest, split, whole⟩ := List.eq_append_cons_of_mem feeds
    have shorter : rest.length < text.length := by
      rw [split, List.length_append, List.length_cons]
      omega
    rw [split, wholeLines_line whole]
    exact .line whole (lined_wholeLines rest)
  · rw [wholeLines_whole feeds]
    split
    next empty => exact empty ▸ .nothing
    next nonempty => exact .last nonempty feeds
termination_by text.length

/-- A text has its lines and no others. -/
theorem lined_iff {text : List Char} {lines : List (List Char)} :
    Lined text lines ↔ lines = wholeLines text := by
  constructor
  · intro lined
    induction lined with
    | nothing => rfl
    | last nonempty whole => rw [wholeLines_whole whole, if_neg nonempty]
    | line whole _ ih => rw [wholeLines_line whole, ih]
  · rintro rfl
    exact lined_wholeLines text

/-- The line on which a text without line feeds stands, and those before it. -/
theorem wholeLines_place (before : List Char) {inside : List Char} (nonempty : inside ≠ [])
    (whole : '\n' ∉ inside) (after : List Char) :
    ∃ earlier line later, wholeLines (before ++ inside ++ after) = earlier ++ line :: later ∧
      earlier.length = before.count '\n' ∧ inside <:+: line ∧ earlier.flatten <+: before := by
  by_cases feeds : '\n' ∈ before
  · -- the text stands behind the first line
    obtain ⟨line, rest, rfl, first⟩ := List.eq_append_cons_of_mem feeds
    obtain ⟨earlier, here, later, split, count, part, covered⟩ :=
      wholeLines_place rest nonempty whole after
    refine ⟨(line ++ ['\n']) :: earlier, here, later, ?_, ?_, part, ?_⟩
    · rw [List.cons_append, ← split, ← wholeLines_line first]
      simp
    · rw [List.length_cons, count, List.count_append, List.count_cons_self,
        List.count_eq_zero_of_not_mem first, Nat.zero_add]
    · rw [List.flatten_cons, List.append_assoc]
      exact (List.prefix_append_right_inj line).2 (List.cons_prefix_cons.2 ⟨rfl, covered⟩)
  · have start : '\n' ∉ before ++ inside := by simp [feeds, whole]
    by_cases ends : '\n' ∈ after
    · obtain ⟨line, rest, rfl, first⟩ := List.eq_append_cons_of_mem ends
      have joined : '\n' ∉ before ++ inside ++ line := by simp [feeds, whole, first]
      have split := wholeLines_line joined rest
      refine ⟨[], before ++ inside ++ line ++ ['\n'], wholeLines rest, ?_, ?_, ?_, List.nil_prefix⟩
      · rw [← List.append_assoc, split]
        rfl
      · rw [List.count_eq_zero_of_not_mem feeds, List.length_nil]
      · exact ⟨before, line ++ ['\n'], by simp⟩
    · refine ⟨[], before ++ inside ++ after, [], ?_, ?_, ⟨before, after, rfl⟩, List.nil_prefix⟩
      · rw [wholeLines_whole (by simp_all), if_neg (by simp [nonempty])]
        rfl
      · rw [List.count_eq_zero_of_not_mem feeds, List.length_nil]
termination_by before.length

end SearchRelay.Text
