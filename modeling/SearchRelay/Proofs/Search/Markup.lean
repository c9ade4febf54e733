import SearchRelay.Proofs.Search.Runs

/-!
Markup is safe and loses nothing. Whatever a text with marks looks like, its markup is text without
characters of markup and pairs of the two tags around the matches, and a reader that leaves the tags
out and decodes the entities gets the plain text back.
-/

namespace SearchRelay

namespace Markup

/-- The entities with the characters that they stand for. -/
def entities : List (List Char × Char) :=
  [("&amp;".toList, '&'), ("&lt;".toList, '<'), ("&gt;".toList, '>'), ("&quot;".toList, '"'),
    ("&#39;".toList, '\'')]

/-- The text that markup stands for, whose entities are decoded. The first `left` characters still
belong to the last entity. -/
def decode : Nat → List Char → List Char
  | _, [] => []
  | left + 1, _ :: rest => decode left rest
  | 0, c :: rest =>
    match entities.find? fun entity => entity.1.isPrefixOf (c :: rest) with
    | some (entity, plain) => plain :: decode (entity.length - 1) rest
    | none => c :: decode 0 rest

/-- Markup without the tags. The first `left` characters still belong to the last one. -/
def dropTags : Nat → List Char → List Char
  | _, [] => []
  | left + 1, _ :: rest => dropTags left rest
  | 0, c :: rest =>
    match [Highlighted.openTag, Highlighted.closeTag].find? fun tag => tag.isPrefixOf (c :: rest) with
    | some tag => dropTags (tag.length - 1) rest
    | none => c :: dropTags 0 rest

/-- A text has none of the characters of markup, but for ampersands that begin an entity. -/
structure Harmless (text : List Char) : Prop where
  plain : ∀ c ∈ text, c ≠ '<' ∧ c ≠ '>' ∧ c ≠ '"' ∧ c ≠ '\''
  entity : ∀ lead rest, text = lead ++ '&' :: rest → ∃ entity ∈ entities, entity.1 <+: '&' :: rest

/-- A part of markup, with the tags around it if it is marked. -/
def tagged (part : Run) : List Char :=
  if part.marked then Highlighted.openTag ++ part.text ++ Highlighted.closeTag else part.text

/-! ### Entities -/

theorem Harmless.append {before after : List Char} (first : Harmless before)
    (second : Harmless after) : Harmless (before ++ after) := by
  refine ⟨List.forall_mem_append.2 ⟨first.plain, second.plain⟩, ?_⟩
  intro lead rest split
  rcases List.append_eq_append_iff.1 split with ⟨middle, -, behind⟩ | ⟨middle, inside, later⟩
  · exact second.entity middle rest behind
  · cases middle with
    | nil => exact second.entity [] rest later.symm
    | cons c middle =>
      obtain ⟨rfl, rfl⟩ := List.cons.inj later
      obtain ⟨entity, known, here⟩ := first.entity lead middle inside
      exact ⟨entity, known, here.trans (List.prefix_append ('&' :: middle) after)⟩

/-- A character is written as the entity that stands for it, or as it is. -/
theorem escapeChar_cases (c : Char) : (Highlighted.escapeChar c, c) ∈ entities ∨
    Highlighted.escapeChar c = [c] ∧ c ≠ '&' ∧ c ≠ '<' ∧ c ≠ '>' ∧ c ≠ '"' ∧ c ≠ '\'' := by
  unfold Highlighted.escapeChar
  split
  next same => subst same; decide
  split
  next same => subst same; decide
  split
  next same => subst same; decide
  split
  next same => subst same; decide
  split
  next same => subst same; decide
  next amp less greater quote tick => exact Or.inr ⟨rfl, amp, less, greater, quote, tick⟩

theorem entities_shape : ∀ entity ∈ entities,
    (∀ c ∈ entity.1, c ≠ '<' ∧ c ≠ '>' ∧ c ≠ '"' ∧ c ≠ '\'') ∧
      ∃ name, entity.1 = '&' :: name ∧ '&' ∉ name := by
  simp [entities]

theorem harmless_escapeChar (c : Char) : Harmless (Highlighted.escapeChar c) := by
  rcases escapeChar_cases c with known | ⟨same, amp, others⟩
  · obtain ⟨plain, name, shape, free⟩ := entities_shape _ known
    refine ⟨plain, ?_⟩
    intro lead rest split
    refine ⟨_, known, ?_⟩
    cases lead with
    | nil => exact split ▸ List.prefix_rfl
    | cons first lead =>
      obtain ⟨-, tail⟩ := List.cons.inj (shape.symm.trans split)
      exact absurd (tail ▸ List.mem_append_right lead List.mem_cons_self) free
  · rw [same]
    refine ⟨List.forall_mem_singleton.2 others, ?_⟩
    intro lead rest split
    have member : '&' ∈ [c] := split ▸ List.mem_append_right lead List.mem_cons_self
    exact absurd (List.mem_singleton.1 member).symm amp

theorem harmless_escape (text : List Char) : Harmless (Highlighted.escape text) := by
  induction text with
  | nil => exact ⟨nofun, fun lead rest split => by cases lead <;> cases split⟩
  | cons c rest ih => exact (harmless_escapeChar c).append ih

theorem decode_escapeChar (c : Char) (rest : List Char) :
    decode 0 (Highlighted.escapeChar c ++ rest) = c :: decode 0 rest := by
  rcases escapeChar_cases c with known | ⟨same, amp, -⟩
  · -- none of the entities begins another
    generalize Highlighted.escapeChar c = written at known
    simp only [entities, List.mem_cons, Prod.mk.injEq, List.not_mem_nil, or_false] at known
    rcases known with ⟨rfl, rfl⟩ | ⟨rfl, rfl⟩ | ⟨rfl, rfl⟩ | ⟨rfl, rfl⟩ | ⟨rfl, rfl⟩ <;> rfl
  · have unknown : (entities.find? fun entity => entity.1.isPrefixOf (c :: rest)) = none := by
      apply List.find?_eq_none.2
      intro entity known
      obtain ⟨-, name, shape, -⟩ := entities_shape entity known
      rw [shape, List.isPrefixOf_iff_prefix, List.cons_prefix_cons]
      exact fun here => amp here.1.symm
    rw [same, List.singleton_append, decode, unknown]

theorem decode_escape (text rest : List Char) :
    decode 0 (Highlighted.escape text ++ rest) = text ++ decode 0 rest := by
  induction text with
  | nil => rfl
  | cons c text ih =>
    have written : Highlighted.escape (c :: text) ++ rest =
        Highlighted.escapeChar c ++ (Highlighted.escape text ++ rest) := List.append_assoc _ _ _
    rw [written, decode_escapeChar, ih, List.cons_append]

/-! ### Tags -/

theorem dropTags_skip (skipped rest : List Char) :
    dropTags skipped.length (skipped ++ rest) = dropTags 0 rest := by
  induction skipped with
  | nil => rfl
  | cons c skipped ih => exact ih

theorem tags_shape : ∀ tag ∈ [Highlighted.openTag, Highlighted.closeTag], ∃ name, tag = '<' :: name := by
  have heads : ∀ tag ∈ [Highlighted.openTag, Highlighted.closeTag], tag.head? = some '<' := by decide
  exact fun tag known => List.head?_eq_some_iff.1 (heads tag known)

theorem dropTags_tag {tag : List Char} (known : tag ∈ [Highlighted.openTag, Highlighted.closeTag])
    (rest : List Char) : dropTags 0 (tag ++ rest) = dropTags 0 rest := by
  have apart : ¬ Highlighted.openTag <+: Highlighted.closeTag ++ rest := fun here =>
    absurd (List.prefix_of_prefix_length_le (List.prefix_append _ rest) here (by decide)) (by decide)
  have found : ([Highlighted.openTag, Highlighted.closeTag].find? fun other =>
      other.isPrefixOf (tag ++ rest)) = some tag := by
    have here : tag.isPrefixOf (tag ++ rest) :=
      List.isPrefixOf_iff_prefix.2 (List.prefix_append tag rest)
    rcases List.mem_pair.1 known with rfl | rfl
    · exact List.find?_cons_of_pos here
    · rw [List.find?_cons, Bool.eq_false_iff.2 (mt List.isPrefixOf_iff_prefix.1 apart)]
      exact List.find?_cons_of_pos here
  obtain ⟨name, same⟩ := tags_shape tag known
  rw [same, List.cons_append] at found ⊢
  rw [dropTags, found]
  exact dropTags_skip name rest

theorem dropTags_plain {text : List Char} (plain : '<' ∉ text) (rest : List Char) :
    dropTags 0 (text ++ rest) = text ++ dropTags 0 rest := by
  induction text with
  | nil => rfl
  | cons c text ih =>
    obtain ⟨first, others⟩ := not_or.1 (mt List.mem_cons.2 plain)
    have unknown : ([Highlighted.openTag, Highlighted.closeTag].find? fun tag =>
        tag.isPrefixOf (c :: (text ++ rest))) = none := by
      apply List.find?_eq_none.2
      intro tag known
      obtain ⟨name, rfl⟩ := tags_shape tag known
      rw [List.isPrefixOf_iff_prefix, List.cons_prefix_cons]
      exact fun here => first here.1
    rw [List.cons_append, dropTags, unknown, ih others, List.cons_append]

theorem dropTags_tagged {parts : List Run} (harmless : ∀ part ∈ parts, Harmless part.text) :
    dropTags 0 (parts.flatMap tagged) = Highlighted.textOf parts := by
  induction parts with
  | nil => rfl
  | cons part rest ih =>
    obtain ⟨first, others⟩ := List.forall_mem_cons.1 harmless
    have free : '<' ∉ part.text := fun inside => (first.plain _ inside).1 rfl
    rw [List.flatMap_cons, Highlighted.textOf_cons, tagged]
    split
    next =>
      rw [List.append_assoc, List.append_assoc, dropTags_tag (by simp), dropTags_plain free,
        dropTags_tag (by simp), ih others]
    next => rw [dropTags_plain free, ih others]

/-! ### The markup of runs -/

/-- A run as a part of markup. Only a match with text gets tags. -/
def partOf (run : Run) : Run := ⟨run.isMatch, Highlighted.escape run.text⟩

theorem toMarkup_eq (highlighted : Highlighted) :
    highlighted.toMarkup = (highlighted.runs.map partOf).flatMap tagged := by
  rw [List.flatMap_map]
  rfl

theorem decode_textOf (runs : List Run) :
    decode 0 (Highlighted.textOf (runs.map partOf)) = Highlighted.textOf runs := by
  induction runs with
  | nil => rfl
  | cons run rest ih =>
    rw [List.map_cons, Highlighted.textOf_cons, Highlighted.textOf_cons, partOf, decode_escape, ih]

theorem decode_escape_self (text : List Char) : decode 0 (Highlighted.escape text) = text := by
  have decoded := decode_escape text []
  rwa [List.append_nil, decode, List.append_nil] at decoded

/-- Whatever marks a text holds, its markup is a row of harmless parts, the matches among them in
tags. Without the tags and with the entities decoded it is the plain text, and its tagged parts are
what stands there at the places of the matches. -/
theorem toMarkup_safe (text : List Char) :
    let highlighted := Highlighted.parse text
    ∃ parts : List Run,
      highlighted.toMarkup = parts.flatMap tagged ∧
      (∀ part ∈ parts, Harmless part.text) ∧
      decode 0 (dropTags 0 highlighted.toMarkup) = highlighted.plain ∧
      ((parts.filter Run.marked).map fun part => Text.encode (decode 0 part.text)) =
        highlighted.spans.map (Text.slice (Text.encode highlighted.plain)) := by
  intro highlighted
  have harmless : ∀ part ∈ highlighted.runs.map partOf, Harmless part.text :=
    List.forall_mem_map.2 fun run _ => harmless_escape run.text
  refine ⟨highlighted.runs.map partOf, toMarkup_eq highlighted, harmless, ?_, ?_⟩
  · rw [toMarkup_eq, dropTags_tagged harmless]
    exact decode_textOf highlighted.runs
  · have kept : (highlighted.runs.map partOf).filter Run.marked =
        (highlighted.runs.filter Run.isMatch).map partOf := List.filter_map
    rw [kept, List.map_map]
    refine Eq.trans ?_ (Highlighted.slices_spansFrom [] highlighted.runs).symm
    exact List.map_congr_left fun run _ => congrArg Text.encode (decode_escape_self run.text)

end Markup

end SearchRelay
