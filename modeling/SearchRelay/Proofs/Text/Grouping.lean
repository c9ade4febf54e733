import Mathlib
import SearchRelay.Proofs.Text.Decimal

/-!
Numerals grouped by thousands. The commas stand between groups of three digits, counted from the
right, and without them the numeral is there again, so no two numbers are written alike.
-/

namespace SearchRelay.Text

theorem comma_not_mem_reverse_decimal (n : Nat) : ',' ∉ (decimal n).reverse := by
  intro inside
  exact absurd (isDigit_of_mem_decimal (List.mem_reverse.1 inside)) (by decide)

/-- Grouping adds commas and nothing else. -/
theorem filter_groupReversed {digits : List Char} (plain : ',' ∉ digits) :
    (groupReversed digits).filter (· ≠ ',') = digits := by
  have others {text : List Char} (free : ',' ∉ text) : text.filter (· ≠ ',') = text :=
    List.filter_eq_self.2 fun c inside => decide_eq_true fun comma => free (comma ▸ inside)
  fun_induction groupReversed digits with
  | case1 a b c d rest ih =>
    obtain ⟨front, back⟩ := not_or.1 (mt (List.mem_append (s := [a, b, c])).2 plain)
    have joined : a :: b :: c :: ',' :: groupReversed (d :: rest) =
        [a, b, c] ++ ([','] ++ groupReversed (d :: rest)) := rfl
    rw [joined, List.filter_append, List.filter_append, others front, ih back]
    rfl
  | case2 => exact others plain

/-- The parts between the commas: a short one in front, and behind it parts of three digits. -/
theorem splitOn_groupReversed {digits : List Char} (plain : ',' ∉ digits) (nonempty : digits ≠ []) :
    ∃ first parts, (groupReversed digits).reverse.splitOn ',' = first :: parts ∧
      1 ≤ first.length ∧ first.length ≤ 3 ∧ ∀ part ∈ parts, part.length = 3 := by
  fun_induction groupReversed digits with
  | case1 a b c d rest ih =>
    obtain ⟨front, back⟩ := not_or.1 (mt (List.mem_append (s := [a, b, c])).2 plain)
    obtain ⟨first, parts, split, least, most, threes⟩ := ih back (List.cons_ne_nil d rest)
    -- turned around, the group of this step is the last one
    have turned : (a :: b :: c :: ',' :: groupReversed (d :: rest)).reverse =
        (groupReversed (d :: rest)).reverse ++ ',' :: [a, b, c].reverse := by simp
    have whole : [a, b, c].reverse.splitOn ',' = [[a, b, c].reverse] :=
      List.splitOn_eq_singleton (mt List.mem_reverse.1 front)
    refine ⟨first, parts ++ [[a, b, c].reverse], ?_, least, most, ?_⟩
    · have comma : (',' == ',') = true := beq_self_eq_true ','
      rw [List.splitOn_eq_splitOnP] at split whole ⊢
      rw [turned, List.splitOnP_append_cons (p := (· == ',')) _ _ comma, split, whole]
      rfl
    · exact List.forall_mem_append.2 ⟨threes, List.forall_mem_singleton.2 rfl⟩
  | case2 short ends =>
    refine ⟨short.reverse, [], List.splitOn_eq_singleton (mt List.mem_reverse.1 plain), ?_, ?_, nofun⟩
    · rw [List.length_reverse]
      exact List.length_pos_iff.2 nonempty
    · rw [List.length_reverse]
      match short, ends with
      | [], _ | [_], _ | [_, _], _ | [_, _, _], _ => simp
      | a :: b :: c :: d :: rest, ends => exact absurd rfl (ends a b c d rest)

theorem filter_grouped (n : Nat) : (grouped n).toList.filter (· ≠ ',') = decimal n := by
  rw [grouped, String.toList_ofList, List.filter_reverse,
    filter_groupReversed (comma_not_mem_reverse_decimal n), List.reverse_reverse]

/-- A grouped numeral is the numeral with commas in it: one to three digits stand before the first
comma, three behind each, and no other number is written so. -/
theorem grouped_lossless (n : Nat) :
    let text := (grouped n).toList
    text.filter (· ≠ ',') = (toString n).toList ∧
      (∃ first parts, text.splitOn ',' = first :: parts ∧
        1 ≤ first.length ∧ first.length ≤ 3 ∧ ∀ part ∈ parts, part.length = 3) ∧
      ∀ m, grouped m = grouped n → m = n := by
  intro text
  refine ⟨?_, ?_, ?_⟩
  · rw [filter_grouped]
    exact (String.toList_ofList).symm
  · have nonempty : (decimal n).reverse ≠ [] := mt List.reverse_eq_nil_iff.1 (decimal_ne_nil n)
    have parts := splitOn_groupReversed (comma_not_mem_reverse_decimal n) nonempty
    rwa [← String.toList_ofList (l := (groupReversed (decimal n).reverse).reverse)] at parts
  · intro m same
    apply decimal_injective
    rw [← filter_grouped, ← filter_grouped, same]

example : grouped 1234567 = "1,234,567" := by decide

end SearchRelay.Text
