import Mathlib
import SearchRelay.Proofs.Text.Words

/-!
The first occurrence of a text in another. A text that cannot overlap itself is found where it was
put, however the text before it ends and the text behind it begins. Folding case keeps lengths and
parts.
-/

namespace SearchRelay.Text

/-- No end of the text, other than the whole of it, is one of its beginnings. -/
def Unbordered (needle : List Char) : Prop :=
  ∀ n < needle.length, 0 < n → ¬ needle.drop n <+: needle

instance (needle : List Char) : Decidable (Unbordered needle) := by
  unfold Unbordered
  infer_instance

section
variable {needle : List Char}

theorem isSome_seek {done text : List Char} : (seek needle done text).isSome ↔ needle <:+: text := by
  fun_induction seek needle done text with
  | case1 done empty =>
    rw [List.isEmpty_iff.1 empty]
    exact iff_of_true rfl List.nil_infix
  | case2 done nonempty =>
    rw [List.infix_nil, ← List.isEmpty_iff]
    exact iff_of_false Bool.false_ne_true nonempty
  | case3 done c rest here =>
    exact iff_of_true rfl (List.isPrefixOf_iff_prefix.1 here).isInfix
  | case4 done c rest other ih =>
    rw [ih, List.infix_cons_iff, ← List.isPrefixOf_iff_prefix]
    exact (or_iff_right other).symm

theorem isSome_cut? {text : List Char} : (cut? needle text).isSome ↔ needle <:+: text := by
  rw [cut?, Option.isSome_map, isSome_seek]

theorem seek_append {before rest : List Char}
    (first : ∀ early late, before = early ++ late → late ≠ [] → ¬ needle <+: late ++ needle ++ rest)
    (done : List Char) :
    seek needle done (before ++ needle ++ rest) = some (done.reverse ++ before, needle ++ rest) := by
  induction before generalizing done with
  | nil =>
    rw [List.nil_append, List.append_nil]
    cases text : needle ++ rest with
    | nil =>
      have empty : needle = [] := (List.append_eq_nil_iff.1 text).1
      rw [seek, empty, if_pos List.isEmpty_nil]
    | cons c text' =>
      have here : needle.isPrefixOf (c :: text') :=
        List.isPrefixOf_iff_prefix.2 (text ▸ List.prefix_append needle rest)
      rw [seek, if_pos here]
  | cons c before ih =>
    have later : ¬ needle.isPrefixOf (c :: (before ++ needle ++ rest)) := fun here =>
      first [] (c :: before) rfl (List.cons_ne_nil _ _) (List.isPrefixOf_iff_prefix.1 here)
    rw [List.cons_append, List.cons_append, seek, if_neg later, ih]
    · simp
    · exact fun early late split => first (c :: early) late (congrArg (c :: ·) split)

theorem cut?_eq_none {text : List Char} (free : ¬ needle <:+: text) : cut? needle text = none :=
  Option.not_isSome_iff_eq_none.1 (mt isSome_cut?.1 free)

/-- A text that does not overlap itself is found behind a text that does not hold it. -/
theorem cut?_append (unbordered : Unbordered needle) {before : List Char}
    (free : ¬ needle <:+: before) (rest : List Char) :
    cut? needle (before ++ needle ++ rest) = some (before, rest) := by
  have first : ∀ early late, before = early ++ late → late ≠ [] →
      ¬ needle <+: late ++ needle ++ rest := by
    intro early late split nonempty here
    rw [List.append_assoc] at here
    by_cases long : needle.length ≤ late.length
    · -- it would lie before the place where it was put
      have inside := List.prefix_of_prefix_length_le here (List.prefix_append late _) long
      exact free (inside.isInfix.trans (split ▸ (List.suffix_append early late).isInfix))
    · -- it would begin before that place and reach into it
      have overlap := here.drop late.length
      rw [List.drop_left] at overlap
      have border := List.prefix_of_prefix_length_le overlap (List.prefix_append needle rest)
        (by rw [List.length_drop]; omega)
      exact unbordered late.length (by omega) (List.length_pos_iff.2 nonempty) border
  rw [cut?, seek_append first]
  simp

theorem seek_first {done text left right : List Char} (nonempty : needle ≠ [])
    (found : seek needle done text = some (left, right)) :
    ∃ before, left = done.reverse ++ before ∧ before ++ right = text ∧ ¬ needle <:+: before := by
  have free : ¬ needle <:+: [] := fun inside => nonempty (List.infix_nil.1 inside)
  fun_induction seek needle done text with
  | case1 _ empty => exact absurd (List.isEmpty_iff.1 empty) nonempty
  | case2 => cases found
  | case3 done c rest here =>
    obtain ⟨rfl, rfl⟩ := Prod.mk.inj (Option.some.inj found)
    exact ⟨[], (List.append_nil _).symm, rfl, free⟩
  | case4 done c rest other ih =>
    obtain ⟨before, rfl, rfl, later⟩ := ih found
    refine ⟨c :: before, by simp, rfl, ?_⟩
    rw [List.infix_cons_iff, not_or]
    refine ⟨fun here => other ?_, later⟩
    exact List.isPrefixOf_iff_prefix.2 (here.trans (List.prefix_append (c :: before) right))

/-- What stands before the first occurrence holds none. -/
theorem cut?_free {text before after : List Char} (nonempty : needle ≠ [])
    (found : cut? needle text = some (before, after)) : ¬ needle <:+: before := by
  obtain ⟨⟨left, right⟩, sought, same⟩ := Option.map_eq_some_iff.1 found
  obtain ⟨rfl, -⟩ := Prod.mk.inj same
  obtain ⟨early, rfl, -, free⟩ := seek_first nonempty sought
  exact free

end

/-! ### Folding -/

theorem length_fold (text : List Char) : (fold text).length = text.length := List.length_map _

theorem fold_append (before after : List Char) : fold (before ++ after) = fold before ++ fold after :=
  List.map_append

theorem infix_fold {inside text : List Char} (part : inside <:+: text) :
    fold inside <:+: fold text := part.map _

end SearchRelay.Text
