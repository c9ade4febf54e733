import SearchRelay.Proofs.Json.RoundTrip

/-!
The indented form of a value has the tokens of the compact one: it differs in blanks alone, and
they only stand where the scanner is between two tokens.
-/

namespace SearchRelay.Json

namespace Scan

theorem run_blanks {blanks : List Char} (blank : ∀ c ∈ blanks, isBlank c) (done : List Token)
    (rest : List Char) : run .between done (blanks ++ rest) = run .between done rest := by
  induction blanks with
  | nil => rfl
  | cons c blanks ih =>
    obtain ⟨first, others⟩ := List.forall_mem_cons.1 blank
    have stepped : step .between done c = some (.between, done) := if_pos first
    rw [List.cons_append, run_cons _ stepped, ih others]

theorem run_newline (depth : Nat) (done : List Token) (rest : List Char) :
    run .between done (newline depth ++ rest) = run .between done rest := by
  apply run_blanks
  intro c inside
  rcases List.mem_cons.1 inside with rfl | space
  · rfl
  · obtain rfl := List.eq_of_mem_replicate space
    rfl

theorem run_space (done : List Token) (rest : List Char) :
    run .between done (' ' :: rest) = run .between done rest := run_cons rest rfl

/-- What may follow a value in the indented form: nothing, a comma, or a line break. -/
inductive Parts : List Char → Prop where
  | nothing : Parts []
  | comma (rest : List Char) : Parts (',' :: rest)
  | line (rest : List Char) : Parts ('\n' :: rest)

theorem parts_items (depth : Nat) (items : List Json) (rest : List Char) :
    Parts (indentedItems depth items ++ rest) := by
  cases items with
  | nil => exact .line _
  | cons item items => exact .comma _

theorem parts_entries (depth : Nat) (entries : List (String × Json)) (rest : List Char) :
    Parts (indentedEntries depth entries ++ rest) := by
  cases entries with
  | nil => exact .line _
  | cons entry entries => exact .comma _

theorem run_int_parts (n : Int) {rest : List Char} (parts : Parts rest) (done : List Token) :
    run .between done ((Number.int n).text ++ rest) =
      run .between (.numeral (Number.int n).text :: done) rest := by
  cases parts with
  | nothing => exact run_int n .nothing done
  | comma rest => exact run_int n (.mark (Or.inl rfl)) done
  | line rest =>
    obtain ⟨first, more, text, start, digits⟩ := Number.text_int n
    have ended : run (.numeral (more.reverse ++ [first])) done ('\n' :: rest) =
        run .between (.numeral (more.reverse ++ [first]).reverse :: done) ('\n' :: rest) := rfl
    rw [text, List.cons_append, run_cons _ (start_numeral start done), run_numeral digits, ended]
    simp

mutual

theorem run_indented (depth : Nat) (value : Json) (whole : value.Whole) {rest : List Char}
    (parts : Parts rest) (done : List Token) :
    run .between done (indented depth value ++ rest) =
      run .between (value.tokens.reverse ++ done) rest := by
  match value with
  | .null | .bool true | .bool false => cases parts <;> rfl
  | .num (.int n) => exact run_int_parts n parts done
  | .str text => exact run_quote text.toList done rest
  | .arr [] | .obj [] => rfl
  | .arr (first :: items) =>
    have opened : run .between done (indented depth (.arr (first :: items)) ++ rest) =
        run .between (.openArray :: done) (newline (depth + 1) ++
          (indented (depth + 1) first ++ (indentedItems depth items ++ rest))) := by
      rw [indented, List.cons_append, List.append_assoc, List.append_assoc]
      exact run_cons _ rfl
    rw [opened, run_newline, run_indented (depth + 1) first whole.1 (parts_items depth items rest),
      run_indentedItems depth items whole.2]
    simp [tokens]
  | .obj ((key, value) :: entries) =>
    have opened : run .between done (indented depth (.obj ((key, value) :: entries)) ++ rest) =
        run .between (.openObject :: done) (newline (depth + 1) ++ (quote key.toList ++
          ':' :: ' ' :: (indented (depth + 1) value ++ (indentedEntries depth entries ++ rest)))) := by
      simp only [indented, List.cons_append, List.append_assoc]
      exact run_cons _ rfl
    rw [opened, run_newline, run_quote, run_colon, run_space,
      run_indented (depth + 1) value whole.1 (parts_entries depth entries rest),
      run_indentedEntries depth entries whole.2]
    simp [tokens]

theorem run_indentedItems (depth : Nat) (items : List Json) (whole : WholeItems items)
    (rest : List Char) (done : List Token) :
    run .between done (indentedItems depth items ++ rest) =
      run .between ((itemTokens items).reverse ++ done) rest := by
  match items with
  | [] =>
    rw [indentedItems, List.append_assoc, run_newline]
    exact run_cons _ rfl
  | item :: items =>
    have opened : run .between done (indentedItems depth (item :: items) ++ rest) =
        run .between (.comma :: done) (newline (depth + 1) ++
          (indented (depth + 1) item ++ (indentedItems depth items ++ rest))) := by
      rw [indentedItems, List.cons_append, List.append_assoc, List.append_assoc]
      exact run_cons _ rfl
    rw [opened, run_newline, run_indented (depth + 1) item whole.1 (parts_items depth items rest),
      run_indentedItems depth items whole.2]
    simp [itemTokens]

theorem run_indentedEntries (depth : Nat) (entries : List (String × Json))
    (whole : WholeEntries entries) (rest : List Char) (done : List Token) :
    run .between done (indentedEntries depth entries ++ rest) =
      run .between ((entryTokens entries).reverse ++ done) rest := by
  match entries with
  | [] =>
    rw [indentedEntries, List.append_assoc, run_newline]
    exact run_cons _ rfl
  | (key, value) :: entries =>
    have opened : run .between done (indentedEntries depth ((key, value) :: entries) ++ rest) =
        run .between (.comma :: done) (newline (depth + 1) ++ (quote key.toList ++
          ':' :: ' ' :: (indented (depth + 1) value ++ (indentedEntries depth entries ++ rest)))) := by
      simp only [indentedEntries, List.cons_append, List.append_assoc]
      exact run_cons _ rfl
    rw [opened, run_newline, run_quote, run_colon, run_space,
      run_indented (depth + 1) value whole.1 (parts_entries depth entries rest),
      run_indentedEntries depth entries whole.2]
    simp [entryTokens]

end

end Scan

theorem tokens?_indented {value : Json} (whole : value.Whole) :
    tokens? (indented 0 value) = some value.tokens := by
  have scanned := Scan.run_indented 0 value whole .nothing []
  simpa [tokens?, Scan.run, Scan.finish] using scanned

/-- The grammar sees no difference between the two forms of a value. -/
theorem ofText?_indented {value : Json} (whole : value.Whole) :
    Tree.ofText? (indented 0 value) = some value.tree := by
  rw [← ofText?_print whole, Tree.ofText?, Tree.ofText?, tokens?_indented whole, tokens?_print whole]

end SearchRelay.Json
