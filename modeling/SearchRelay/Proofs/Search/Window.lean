import SearchRelay.Proofs.Record.Stored
import SearchRelay.Proofs.Search.Snippets

/-!
Snippets stay inside their file. The line of the match comes from the marked copy and the lines from
the content, and these may be any two texts: the line is brought back into the file, and whole lines
of it are shown that end there.
-/

namespace SearchRelay

/-- The text of a member. One that is missing or no string counts as empty. -/
inductive Json.Tells (value : Json) (key : String) : String → Prop where
  | text {text : String} (known : value.get? key = some (.str text)) : Tells value key text
  | nothing (unknown : ∀ text, value.get? key ≠ some (.str text)) : Tells value key ""

theorem Json.Tells.eq {value : Json} {key text other : String} (told : value.Tells key text)
    (known : value.get? key = some (.str other)) : text = other := by
  cases told with
  | text same => exact Json.str.inj (Option.some.inj (same.symm.trans known))
  | nothing unknown => exact absurd known (unknown other)

theorem Json.tells_stringMember (value : Json) (key : String) :
    value.Tells key (Snippet.stringMember value key) := by
  unfold Snippet.stringMember
  split
  next known => exact .text known
  next unknown => exact .nothing unknown

namespace Snippet

/-- A snippet of these lines, where this is the first marked fragment, if there is one. Without a
mark it is the first line. -/
structure StaysInside (lines : List (List Char)) (fragment : Option (List Char))
    (snippet : Snippet) : Prop where
  /-- Up to three lines are shown, whole and one after the other, up to the line of the match. -/
  run : ∃ above shown below, lines = above ++ shown ++ below ∧ shown.length ≤ 3 ∧
    snippet.startLine = above.length + 1 ∧ snippet.data = String.ofList shown.flatten ∧
    above ++ shown = lines.take (snippet.matchLine.getD 1)
  /-- Nothing is shown only where there is nothing. -/
  empty : snippet.data = "" → lines = []
  start : 1 ≤ snippet.startLine ∧ snippet.startLine ≤ max lines.length 1
  marked : snippet.matchLine.isSome ↔ ∃ text, fragment = some text ∧ startMark <:+: text
  /-- The line feeds before the first mark tell the line, as far as the file goes. -/
  place : ∀ number, snippet.matchLine = some number ↔ ∃ before after,
    fragment = some (before ++ startMark ++ after) ∧ ¬ startMark <:+: before ∧
      number = min (before.count '\n' + 1) (max lines.length 1)
  above : snippet.startLine = max 1 (snippet.matchLine.getD 1 - 2)

/-! ### The first mark -/

theorem linesBeforeMark_eq_some {text : List Char} {feeds : Nat} :
    linesBeforeMark text = some feeds ↔ ∃ before after, text = before ++ startMark ++ after ∧
      ¬ startMark <:+: before ∧ feeds = before.count '\n' := by
  constructor
  · intro found
    obtain ⟨⟨before, after⟩, cut, rfl⟩ := Option.map_eq_some_iff.1 found
    exact ⟨before, after, Text.cut?_eq cut, Text.cut?_free (by decide) cut, rfl⟩
  · rintro ⟨before, after, rfl, free, rfl⟩
    rw [linesBeforeMark, Text.cut?_append Highlighted.unbordered_startMark free]
    rfl

theorem isSome_linesBeforeMark {text : List Char} :
    (linesBeforeMark text).isSome ↔ startMark <:+: text := by
  rw [linesBeforeMark, Option.isSome_map, Text.isSome_cut?]

/-! ### The lines shown -/

theorem take_append_window (lines : List (List Char)) (last : Nat) :
    lines.take (last - leadingLines) ++ window lines last = lines.take (last + 1) := by
  have early : lines.take (last - leadingLines) =
      (lines.take (last + 1)).take (last - leadingLines) := by
    rw [List.take_take, min_eq_left (by omega)]
  rw [window_eq, early, List.take_append_drop]

theorem length_window_le (lines : List (List Char)) (last : Nat) :
    (window lines last).length ≤ 3 := by
  rw [window, List.length_take, leadingLines]
  omega

theorem window_ne_nil {lines : List (List Char)} {last : Nat} (inside : last < lines.length) :
    window lines last ≠ [] := by
  apply List.ne_nil_of_length_pos
  rw [window, List.length_take, List.length_drop, leadingLines]
  omega

/-- Lines that are shown hold text. -/
theorem flatten_window_ne_nil {content : List Char} {lines : List (List Char)}
    (lined : Text.Lined content lines) {last : Nat} (inside : last < lines.length) :
    (window lines last).flatten ≠ [] := by
  obtain ⟨line, others, shown⟩ := List.exists_cons_of_ne_nil (window_ne_nil inside)
  have known : line ∈ window lines last := shown ▸ List.mem_cons_self
  have text := lined.ne_nil line (List.mem_of_mem_drop (List.mem_of_mem_take known))
  rw [shown, List.flatten_cons]
  exact List.append_ne_nil_of_left_ne_nil text _

/-- A line that was brought back into the file and the lines above it are a snippet of the file. -/
theorem staysInside_window {content : List Char} {lines : List (List Char)}
    (lined : Text.Lined content lines) {fragment : Option (List Char)} {snippet : Snippet} {last : Nat}
    (brought : last = min ((fragment.bind linesBeforeMark).getD 0) (lines.length - 1))
    (start : snippet.startLine = last - leadingLines + 1)
    (matched : snippet.matchLine = (fragment.bind linesBeforeMark).map fun _ => last + 1)
    (data : snippet.data = String.ofList (window lines last).flatten) :
    snippet.StaysInside lines fragment := by
  have fits : last ≤ lines.length - 1 := brought.trans_le (min_le_right _ _)
  have ends : snippet.matchLine.getD 1 = last + 1 := by
    rw [matched, brought]
    cases fragment.bind linesBeforeMark <;> simp
  constructor
  case run =>
    have parts := take_append_window lines last
    refine ⟨lines.take (last - leadingLines), window lines last, lines.drop (last + 1), ?_,
      length_window_le lines last, ?_, data, ends ▸ parts⟩
    · rw [parts, List.take_append_drop]
    · rw [start, List.length_take]
      omega
  case empty =>
    intro blank
    by_contra nonempty
    have count := List.length_pos_iff.2 nonempty
    have inside : last < lines.length := by omega
    have text := flatten_window_ne_nil lined inside
    rw [data, String.ofList_eq_empty_iff] at blank
    exact text blank
  case start =>
    rw [start, leadingLines]
    omega
  case marked =>
    rw [matched, Option.isSome_map, Option.isSome_bind]
    cases fragment <;> simp [isSome_linesBeforeMark]
  case place =>
    intro number
    constructor
    · intro told
      obtain ⟨feeds, found, rfl⟩ := Option.map_eq_some_iff.1 (matched ▸ told)
      obtain ⟨text, rfl, here⟩ := Option.bind_eq_some_iff.1 found
      obtain ⟨before, after, rfl, free, rfl⟩ := linesBeforeMark_eq_some.1 here
      refine ⟨before, after, rfl, free, ?_⟩
      rw [brought, found, Option.getD_some]
      omega
    · rintro ⟨before, after, rfl, free, rfl⟩
      have here := linesBeforeMark_eq_some.2 ⟨before, after, rfl, free, rfl⟩
      rw [matched, brought, Option.bind_some, here, Option.map_some, Option.getD_some]
      congr 1
      omega
  case above =>
    rw [start, ends, leadingLines]
    omega

/-- Whatever its content and its marked copy hold, a hit with a file gives a snippet that stays
inside the file, and only a hit without a file gives none. -/
theorem ofHit_staysInside (hit : Hit) (project : Option Nat) :
    match hit.source.get? "blob" with
    | none => ∃ report, ofHit hit project = .error report
    | some blob => ∃ content lines snippet, blob.Tells "content" content ∧
        Text.Lined content.toList lines ∧ ofHit hit project = .ok snippet ∧
        snippet.StaysInside lines
          (((Entries.find? hit.highlight "blob.content").bind List.head?).map String.toList) := by
  rw [ofHit, Json.lookup_key hit.source (by decide)]
  cases hit.source.get? "blob" with
  | none => exact ⟨_, rfl⟩
  | some blob =>
    have told := blob.tells_stringMember "content"
    have lined := Text.lined_wholeLines (stringMember blob "content").toList
    have marked : (((hit.marked? "blob.content").bind List.head?).map String.toList).bind
        linesBeforeMark = ((hit.marked? "blob.content").bind List.head?).bind
          fun fragment => linesBeforeMark fragment.toList := Option.bind_map
    refine ⟨_, _, _, told, lined, rfl, staysInside_window lined ?_ rfl ?_ rfl⟩
    all_goals rw [← Hit.marked?, marked]

private def shortHit : Hit where
  id := "7_list.txt"
  score := none
  source := .obj [("blob", .obj [("content", .str "one\ntwo\nthree\nfour")])]
  highlight := [("blob.content", [String.ofList ("1\n2\n3\n4\n5\n".toList ++ startMark ++ "6".toList)])]

/-- The mark is on a sixth line and the file has four. -/
theorem ofHit_staysInside_short : ∃ snippet, ofHit shortHit none = .ok snippet ∧
    snippet.matchLine = some 4 ∧ snippet.startLine = 2 ∧ snippet.data = "two\nthree\nfour" := by
  obtain ⟨content, lines, snippet, told, lined, read, inside⟩ := ofHit_staysInside shortHit none
  obtain rfl : content = "one\ntwo\nthree\nfour" := told.eq rfl
  obtain rfl := Text.lined_iff.1 lined
  have line : snippet.matchLine = some 4 :=
    (inside.place 4).2 ⟨"1\n2\n3\n4\n5\n".toList, "6".toList, by decide +kernel, by decide, by decide⟩
  have start : snippet.startLine = 2 := by
    rw [inside.above, line]
    rfl
  obtain ⟨above, shown, below, -, -, first, data, ends⟩ := inside.run
  have one : above.length = 1 := Nat.succ.inj (first.symm.trans start)
  have behind : (above ++ shown).drop 1 = shown := List.drop_left' one
  have three : shown = ["two\n".toList, "three\n".toList, "four".toList] := by
    rw [← behind, ends, line]
    decide +kernel
  refine ⟨snippet, read, line, start, ?_⟩
  rw [data, three]
  decide +kernel

end Snippet

end SearchRelay
