import SearchRelay.Json.Print
import SearchRelay.Json.Token
import SearchRelay.Proofs.Json.Portable

/-!
The scanner on printed values. A numeral and a word are only known to be over when the character
behind them is read, so every statement speaks of a value with what follows it.
-/

namespace SearchRelay.Text

theorem isDigit_of_mem_decimal {n : Nat} {c : Char} (inside : c ∈ decimal n) : c.isDigit :=
  Nat.isDigit_of_mem_toDigits (by decide) (by decide) inside

theorem decimal_ne_nil (n : Nat) : decimal n ≠ [] := Nat.toDigits_ne_nil

theorem decimal_first (n : Nat) :
    ∃ first more, decimal n = first :: more ∧ first.isDigit ∧ ∀ c ∈ more, c.isDigit := by
  obtain ⟨first, more, split⟩ := List.exists_cons_of_ne_nil (decimal_ne_nil n)
  have digits (c : Char) (inside : c ∈ first :: more) : c.isDigit :=
    isDigit_of_mem_decimal (split ▸ inside)
  exact ⟨first, more, split, List.forall_mem_cons.1 digits⟩

end SearchRelay.Text

namespace SearchRelay.Json

mutual

/-- The tokens of the compact text of a value. -/
def tokens : Json → List Token
  | .null => [.null]
  | .bool value => [.bool value]
  | .num value => [.numeral value.text]
  | .str text => [.string (some text.toList)]
  | .arr [] => [.openArray, .closeArray]
  | .arr (first :: rest) => .openArray :: (tokens first ++ itemTokens rest)
  | .obj [] => [.openObject, .closeObject]
  | .obj ((key, value) :: rest) =>
    .openObject :: .string (some key.toList) :: .colon :: (tokens value ++ entryTokens rest)

/-- The tokens of the items after the first one and of the closing bracket. -/
def itemTokens : List Json → List Token
  | [] => [.closeArray]
  | item :: rest => .comma :: (tokens item ++ itemTokens rest)

/-- The tokens of the entries after the first one and of the closing brace. -/
def entryTokens : List (String × Json) → List Token
  | [] => [.closeObject]
  | (key, value) :: rest =>
    .comma :: .string (some key.toList) :: .colon :: (tokens value ++ entryTokens rest)

end

/-- What may follow a value: nothing, or a character that no numeral and no word holds. -/
inductive Follows : List Char → Prop where
  | nothing : Follows []
  | mark {c : Char} {rest : List Char} (ends : c = ',' ∨ c = ']' ∨ c = '\x7d') : Follows (c :: rest)

theorem hexValue?_hexDigit : ∀ n < 16, Text.hexValue? (hexDigit n) = some n := by decide

theorem Number.text_int (n : Int) :
    ∃ first more, (Number.int n).text = first :: more ∧ (first.isDigit ∨ first = '-') ∧
      ∀ c ∈ more, c.isDigit := by
  cases n with
  | ofNat n =>
    obtain ⟨first, more, same, digit, digits⟩ := Text.decimal_first n
    exact ⟨first, more, same, Or.inl digit, digits⟩
  | negSucc n =>
    exact ⟨'-', Text.decimal (n + 1), rfl, Or.inr rfl, fun _ => Text.isDigit_of_mem_decimal⟩

namespace Scan

theorem run_cons {scan next : Scan} {done after : List Token} {c : Char} (rest : List Char)
    (stepped : scan.step done c = some (next, after)) :
    run scan done (c :: rest) = run next after rest := by
  simp only [run, stepped]

theorem run_colon (done : List Token) (rest : List Char) :
    run .between done (':' :: rest) = run .between (.colon :: done) rest := run_cons rest rfl

/-! ### Strings -/

/-- A printed character is read back, whichever way it is escaped. -/
theorem run_escapeChar (c : Char) (chars : List Char) (done : List Token) (rest : List Char) :
    run (.string ⟨chars, none, true⟩) done (escapeChar c ++ rest) =
      run (.string ⟨c :: chars, none, true⟩) done rest := by
  unfold escapeChar
  split
  next same => subst same; rfl
  next notQuote =>
  split
  next same => subst same; rfl
  next notSlash =>
  split
  next visible =>
    apply run_cons
    simp only [step, notQuote, notSlash, if_false, Quoted.push, Option.isNone_none, Bool.and_self]
    rw [if_neg (by omega)]
  next control =>
  split
  next same => subst same; rfl
  split
  next same => subst same; rfl
  split
  next same => subst same; rfl
  split
  next code =>
    have same : c = Char.ofNat 8 := by rw [← code, Char.ofNat_toNat]
    subst same; rfl
  split
  next code =>
    have same : c = Char.ofNat 12 := by rw [← code, Char.ofNat_toNat]
    subst same; rfl
  next =>
    -- the code of a control character is written with four digits, the first two of them zero
    have zero : Text.hexValue? '0' = some 0 := rfl
    have high := hexValue?_hexDigit (c.toNat / 16) (by omega)
    have low := hexValue?_hexDigit (c.toNat % 16) (by omega)
    have code : c.toNat / 16 * 16 + c.toNat % 16 = c.toNat := by omega
    simp [run, step, zero, high, low, Quoted.pushUnit, code]
    rw [if_neg (by omega), if_neg (by omega)]

theorem run_escaped (text chars : List Char) (done : List Token) (rest : List Char) :
    run (.string ⟨chars, none, true⟩) done (text.flatMap escapeChar ++ rest) =
      run (.string ⟨text.reverse ++ chars, none, true⟩) done rest := by
  induction text generalizing chars with
  | nil => rfl
  | cons c text ih =>
    rw [List.flatMap_cons, List.append_assoc, run_escapeChar, ih]
    simp

theorem run_quote (text : List Char) (done : List Token) (rest : List Char) :
    run .between done (quote text ++ rest) = run .between (.string (some text) :: done) rest := by
  have opened : run .between done (quote text ++ rest) =
      run (.string ⟨[], none, true⟩) done (text.flatMap escapeChar ++ '"' :: rest) := by
    simp only [quote, List.cons_append, List.append_assoc, List.nil_append]
    exact run_cons _ rfl
  rw [opened, run_escaped]
  apply run_cons
  simp [step, Quoted.finish]

/-! ### Numerals and words -/

theorem start_numeral {c : Char} (first : c.isDigit ∨ c = '-') (done : List Token) :
    step .between done c = some (.numeral [c], done) := by
  rcases first with digit | rfl
  · have different (other : Char) (notDigit : other.isDigit = false) : c ≠ other := by
      rintro rfl
      rw [digit] at notDigit
      cases notDigit
    simp only [step, start, isBlank, digit, beq_eq_false_iff_ne.2 (different ' ' rfl),
      beq_eq_false_iff_ne.2 (different '\n' rfl),
      beq_eq_false_iff_ne.2 (different '\t' rfl),
      beq_eq_false_iff_ne.2 (different '\r' rfl), different '"' rfl,
      different '[' rfl, different ']' rfl, different '\x7b' rfl,
      different '\x7d' rfl, different ',' rfl, different ':' rfl,
      Bool.or_self, Bool.true_or, if_false, if_true, Bool.false_eq_true]
  · rfl

theorem run_numeral {more : List Char} (digits : ∀ c ∈ more, c.isDigit) (chars : List Char)
    (done : List Token) (rest : List Char) :
    run (.numeral chars) done (more ++ rest) = run (.numeral (more.reverse ++ chars)) done rest := by
  induction more generalizing chars with
  | nil => rfl
  | cons c more ih =>
    have digit := digits c List.mem_cons_self
    have stepped : step (.numeral chars) done c = some (.numeral (c :: chars), done) := by
      simp [step, isNumeralChar, digit]
    rw [List.cons_append, run_cons _ stepped, ih fun c inside => digits c (List.mem_cons_of_mem _ inside)]
    simp

/-- A numeral is over where something else begins. -/
theorem run_numeral_end {rest : List Char} (follows : Follows rest) (chars : List Char)
    (done : List Token) :
    run (.numeral chars) done rest = run .between (.numeral chars.reverse :: done) rest := by
  cases follows with
  | nothing => rfl
  | mark ends => rcases ends with rfl | rfl | rfl <;> rfl

theorem run_word_end {rest : List Char} (chars : List Char) (follows : Follows rest) {token : Token}
    (known : Token.ofWord? chars.reverse = some token) (done : List Token) :
    run (.word chars) done rest = run .between (token :: done) rest := by
  cases follows with
  | nothing => simp only [run, finish, known, Option.map_some]
  | mark ends => rcases ends with rfl | rfl | rfl <;> simp only [run, step, known] <;> rfl

theorem run_int (n : Int) {rest : List Char} (follows : Follows rest) (done : List Token) :
    run .between done ((Number.int n).text ++ rest) =
      run .between (.numeral (Number.int n).text :: done) rest := by
  obtain ⟨first, more, text, start, digits⟩ := Number.text_int n
  rw [text, List.cons_append, run_cons _ (start_numeral start done), run_numeral digits,
    run_numeral_end follows]
  simp

/-! ### Values -/

theorem follows_items (items : List Json) (rest : List Char) : Follows (printItems items ++ rest) := by
  cases items with
  | nil => exact .mark (Or.inr (Or.inl rfl))
  | cons item items => exact .mark (Or.inl rfl)

theorem follows_entries (entries : List (String × Json)) (rest : List Char) :
    Follows (printEntries entries ++ rest) := by
  cases entries with
  | nil => exact .mark (Or.inr (Or.inr rfl))
  | cons entry entries => exact .mark (Or.inl rfl)

mutual

/-- The scanner reads the tokens of a printed value. -/
theorem run_print (value : Json) (whole : value.Whole) {rest : List Char} (follows : Follows rest)
    (done : List Token) :
    run .between done (value.print ++ rest) = run .between (value.tokens.reverse ++ done) rest := by
  match value with
  | .null => exact run_word_end ['l', 'l', 'u', 'n'] follows rfl done
  | .bool true => exact run_word_end ['e', 'u', 'r', 't'] follows rfl done
  | .bool false => exact run_word_end ['e', 's', 'l', 'a', 'f'] follows rfl done
  | .num (.int n) => exact run_int n follows done
  | .str text => exact run_quote text.toList done rest
  | .arr [] => rfl
  | .arr (first :: items) =>
    have opened : run .between done ((Json.arr (first :: items)).print ++ rest) =
        run .between (.openArray :: done) (first.print ++ (printItems items ++ rest)) := by
      rw [print, List.cons_append, List.append_assoc]
      exact run_cons _ rfl
    rw [opened, run_print first whole.1 (follows_items items rest), run_printItems items whole.2]
    simp [tokens]
  | .obj [] => rfl
  | .obj ((key, value) :: entries) =>
    have opened : run .between done ((Json.obj ((key, value) :: entries)).print ++ rest) =
        run .between (.openObject :: done)
          (quote key.toList ++ ':' :: (value.print ++ (printEntries entries ++ rest))) := by
      simp only [print, List.cons_append, List.append_assoc]
      exact run_cons _ rfl
    rw [opened, run_quote, run_colon,
      run_print value whole.1 (follows_entries entries rest), run_printEntries entries whole.2]
    simp [tokens]

theorem run_printItems (items : List Json) (whole : WholeItems items) (rest : List Char)
    (done : List Token) :
    run .between done (printItems items ++ rest) =
      run .between ((itemTokens items).reverse ++ done) rest := by
  match items with
  | [] => rfl
  | item :: items =>
    have opened : run .between done (printItems (item :: items) ++ rest) =
        run .between (.comma :: done) (item.print ++ (printItems items ++ rest)) := by
      rw [printItems, List.cons_append, List.append_assoc]
      exact run_cons _ rfl
    rw [opened, run_print item whole.1 (follows_items items rest), run_printItems items whole.2]
    simp [itemTokens]

theorem run_printEntries (entries : List (String × Json)) (whole : WholeEntries entries)
    (rest : List Char) (done : List Token) :
    run .between done (printEntries entries ++ rest) =
      run .between ((entryTokens entries).reverse ++ done) rest := by
  match entries with
  | [] => rfl
  | (key, value) :: entries =>
    have opened : run .between done (printEntries ((key, value) :: entries) ++ rest) =
        run .between (.comma :: done)
          (quote key.toList ++ ':' :: (value.print ++ (printEntries entries ++ rest))) := by
      simp only [printEntries, List.cons_append, List.append_assoc]
      exact run_cons _ rfl
    rw [opened, run_quote, run_colon,
      run_print value whole.1 (follows_entries entries rest), run_printEntries entries whole.2]
    simp [entryTokens]

end

end Scan

theorem tokens?_print {value : Json} (whole : value.Whole) : tokens? value.print = some value.tokens := by
  have scanned := Scan.run_print value whole .nothing []
  simpa [tokens?, Scan.run, Scan.finish] using scanned

end SearchRelay.Json
