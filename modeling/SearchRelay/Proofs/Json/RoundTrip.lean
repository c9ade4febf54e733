import SearchRelay.Json.Decode
import SearchRelay.Proofs.Json.Lexing

/-!
Reading undoes printing: `read?_print` for every portable document, and `read?_print_normal` for
a value whose keys may stand in any order.
-/

namespace SearchRelay

/-! ### Decimal numerals -/

namespace Text

theorem decimal_step {n : Nat} (large : 10 ≤ n) :
    decimal n = decimal (n / 10) ++ [Nat.digitChar (n % 10)] :=
  Nat.toDigits_of_base_le (by decide) large

theorem digitValue_digitChar {n : Nat} (digit : n < 10) : digitValue (Nat.digitChar n) = n :=
  Nat.toNat_digitChar_sub_48_of_lt_ten digit

theorem decimal_leading_zero {n : Nat} {rest : List Char} (zero : decimal n = '0' :: rest) :
    n = 0 ∧ rest = [] := by
  induction n using Nat.strongRecOn generalizing rest with
  | ind n ih =>
    rcases Nat.lt_or_ge n 10 with small | large
    · rw [decimal, Nat.toDigits_of_lt_base small] at zero
      obtain ⟨digit, none⟩ := List.cons_eq_cons.1 zero
      exact ⟨Nat.digitChar_eq_zero.1 digit, none.symm⟩
    · rw [decimal_step large] at zero
      obtain ⟨first, more, split, -⟩ := decimal_first (n / 10)
      rw [split, List.cons_append] at zero
      obtain ⟨same, _⟩ := List.cons_eq_cons.1 zero
      have nothing := (ih (n / 10) (by omega) (same ▸ split)).1
      omega

end Text

namespace Numeral

/-- Digits that fit are taken whole, and what follows them goes on from their value. -/
theorem gather_append {before after : List Char} {start value : Nat}
    (taken : gather start before = (value, [])) :
    gather start (before ++ after) = gather value after := by
  induction before generalizing start with
  | nil =>
    obtain ⟨rfl, _⟩ := Prod.mk.inj taken
    rfl
  | cons c before ih =>
    simp only [gather, List.cons_append] at taken ⊢
    split at taken
    next fits => rw [if_pos fits, ih taken]
    next => cases (Prod.mk.inj taken).2

theorem gather_decimal {n : Nat} (fits : n ≤ Text.maxWord) : gather 0 (Text.decimal n) = (n, []) := by
  induction n using Nat.strongRecOn with
  | ind n ih =>
    rcases Nat.lt_or_ge n 10 with small | large
    · rw [Text.decimal, Nat.toDigits_of_lt_base small]
      simp [gather, Text.digitValue_digitChar small, fits]
    · have earlier := ih (n / 10) (by omega) (by omega)
      have value : n / 10 * 10 + n % 10 = n := by omega
      rw [Text.decimal_step large, gather_append earlier]
      simp [gather, Text.digitValue_digitChar (Nat.mod_lt n (by decide)), value, fits]

theorem gather_le {start : Nat} (small : start ≤ Text.maxWord) (digits : List Char) :
    (gather start digits).1 ≤ Text.maxWord := by
  induction digits generalizing start with
  | nil => exact small
  | cons c digits ih =>
    rw [gather]
    split
    next fits => exact ih fits
    next => exact small

theorem wholePart?_decimal (n : Nat) :
    wholePart? (Text.decimal n) = some (Text.decimal n, []) := by
  have all : ∀ c ∈ Text.decimal n, c.isDigit := fun c => Text.isDigit_of_mem_decimal
  have taken : (Text.decimal n).takeWhile Char.isDigit = Text.decimal n :=
    List.takeWhile_eq_self_iff.2 all
  have left : (Text.decimal n).dropWhile Char.isDigit = [] := List.dropWhile_eq_nil_iff.2 all
  unfold wholePart?
  rw [taken, left]
  split
  next none => exact absurd none (Text.decimal_ne_nil n)
  next zero => rw [zero]
  next rest notZero zero => exact absurd (Text.decimal_leading_zero zero).2 notZero
  next => rfl

def ofInt (n : Int) : Numeral := ⟨n < 0, Text.decimal n.natAbs, none, none⟩

theorem ofText?_int (n : Int) : ofText? (Number.int n).text = some (ofInt n) := by
  cases n with
  | negSucc n =>
    simp [ofText?, Number.text, wholePart?_decimal, fractionPart?, exponentPart?, ofInt]
  | ofNat n =>
    obtain ⟨first, more, split, digit, -⟩ := Text.decimal_first n
    have unsigned : first ≠ '-' := by
      rintro rfl
      cases digit
    have whole := wholePart?_decimal n
    rw [split] at whole
    simp [ofText?, Number.text, split, unsigned, whole, fractionPart?, exponentPart?, ofInt]

theorem toNumber?_int {n : Int} (low : -2 ^ 63 ≤ n) (high : n < 2 ^ 64) :
    (ofInt n).toNumber? = some (.int n) := by
  have fits : n.natAbs ≤ Text.maxWord := by
    rw [Text.maxWord, Nat.pow_eq]
    omega
  have gathered := gather_decimal fits
  simp only [toNumber?, ofInt, Option.isSome_none, Bool.or_self, Bool.false_eq_true, if_false,
    gathered]
  rcases Int.lt_or_le n 0 with negative | positive
  · simp only [negative, decide_true, Bool.not_true, Bool.false_eq_true, if_false]
    rw [if_pos (by simp only [Bool.and_eq_true, decide_eq_true_eq, Nat.pow_eq]; omega)]
    congr 2
    omega
  · simp only [Int.not_lt.2 positive, decide_false, Bool.not_false, if_true]
    congr 2
    omega

end Numeral

namespace Json

/-! ### The grammar -/

mutual

/-- What the grammar makes of a printed value. -/
def tree : Json → Tree
  | .null => .null
  | .bool value => .bool value
  | .num value =>
    match Numeral.ofText? value.text with
    | some numeral => .numeral numeral
    | none => .null
  | .str text => .string (some text)
  | .arr items => .array (treeItems items)
  | .obj entries => .object (treeEntries entries)

def treeItems : List Json → List Tree
  | [] => []
  | item :: rest => tree item :: treeItems rest

def treeEntries : List (String × Json) → List (Option String × Tree)
  | [] => []
  | (key, value) :: rest => (some key, tree value) :: treeEntries rest

end

namespace Tree.Reading

theorem run_cons (reading : Reading) (token : Token) (rest : List Token) :
    run reading (token :: rest) = (reading.step token).bind fun next => run next rest := by
  rw [run]
  cases reading.step token with
  | none => rfl
  | some next => rfl

theorem run_step {reading next : Reading} {token : Token} (rest : List Token)
    (stepped : reading.step token = some next) : run reading (token :: rest) = run next rest := by
  rw [run_cons, stepped, Option.bind_some]

/-- No value begins with a closing bracket, so an item may stand where an array might end. -/
theorem run_firstItem (frames : List Frame) (value : Json) (rest : List Token) :
    run ⟨frames, .firstItem⟩ (value.tokens ++ rest) = run ⟨frames, .value⟩ (value.tokens ++ rest) := by
  match value with
  | .null | .bool _ | .num _ | .str _ | .arr [] | .arr (_ :: _) | .obj [] | .obj ((_, _) :: _) => rfl

theorem textOf_toList (text : String) : textOf (some text.toList) = some text := by
  simp [textOf]

mutual

/-- The grammar hands the tree of a value to the container around it. -/
theorem run_tokens (value : Json) (whole : value.Whole) (frames : List Frame) (rest : List Token) :
    run ⟨frames, .value⟩ (value.tokens ++ rest) =
      (complete frames value.tree).bind fun next => run next rest := by
  match value with
  | .null | .bool _ => exact run_cons _ _ _
  | .num (.int n) =>
    have read : step ⟨frames, .value⟩ (.numeral (Number.int n).text) =
        complete frames (.numeral (.ofInt n)) := by
      simp only [step, openValue, Numeral.ofText?_int, Option.bind_some]
    rw [tokens, List.cons_append, run_cons, read, tree, Numeral.ofText?_int]
    rfl
  | .str text =>
    have read : step ⟨frames, .value⟩ (.string (some text.toList)) =
        complete frames (.string (some text)) := by
      simp only [step, openValue, textOf_toList]
    rw [tokens, List.cons_append, run_cons, read]
    rfl
  | .arr [] =>
    rw [tokens, List.cons_append, run_step _ rfl]
    exact run_cons _ _ _
  | .arr (first :: items) =>
    rw [tokens, List.cons_append, run_step _ rfl, List.append_assoc, run_firstItem,
      run_tokens first whole.1]
    exact run_itemTokens items whole.2 [tree first] frames rest
  | .obj [] =>
    rw [tokens, List.cons_append, run_step _ rfl]
    exact run_cons _ _ _
  | .obj ((key, value) :: entries) =>
    simp only [tokens, List.cons_append, List.append_assoc]
    rw [run_step _ rfl, run_step _ rfl, textOf_toList, run_step _ rfl, run_tokens value whole.1]
    exact run_entryTokens entries whole.2 [(some key, tree value)] frames rest

theorem run_itemTokens (items : List Json) (whole : WholeItems items) (done : List Tree)
    (frames : List Frame) (rest : List Token) :
    run ⟨.array done :: frames, .separator⟩ (itemTokens items ++ rest) =
      (complete frames (.array (done.reverse ++ treeItems items))).bind fun next =>
        run next rest := by
  match items with
  | [] =>
    rw [treeItems, List.append_nil]
    exact run_cons _ _ _
  | item :: items =>
    rw [itemTokens, List.cons_append, run_step _ rfl, List.append_assoc, run_tokens item whole.1]
    refine (run_itemTokens items whole.2 (tree item :: done) frames rest).trans ?_
    simp [treeItems]

theorem run_entryTokens (entries : List (String × Json)) (whole : WholeEntries entries)
    (done : List (Option String × Tree)) (frames : List Frame) (rest : List Token) :
    run ⟨.object done :: frames, .separator⟩ (entryTokens entries ++ rest) =
      (complete frames (.object (done.reverse ++ treeEntries entries))).bind fun next =>
        run next rest := by
  match entries with
  | [] =>
    rw [treeEntries, List.append_nil]
    exact run_cons _ _ _
  | (key, value) :: entries =>
    simp only [entryTokens, List.cons_append, List.append_assoc]
    rw [run_step _ rfl, run_step _ rfl, textOf_toList, run_step _ rfl, run_tokens value whole.1]
    refine (run_entryTokens entries whole.2 ((some key, tree value) :: done) frames rest).trans ?_
    simp [treeEntries]

end

end Tree.Reading

theorem ofText?_print {value : Json} (whole : value.Whole) :
    Tree.ofText? value.print = some value.tree := by
  have read := Tree.Reading.run_tokens value whole [] []
  rw [List.append_nil] at read
  rw [Tree.ofText?, tokens?_print whole, Option.bind_some]
  exact read

/-! ### The value -/

theorem allSome_cons {α : Type} (part : Option α) (parts : List (Option α)) :
    allSome (part :: parts) = part.bind fun value => (allSome parts).map (value :: ·) := by
  -- what was collected before stays behind what comes, whichever way the collecting ends
  have grown {step : Option (List α) → Option α → Option (List α)}
      (takes : ∀ done value, step (some done) (some value) = some (value :: done))
      (stops : ∀ part, step none part = none) (lacks : ∀ done, step done none = none)
      (parts : List (Option α)) (start : Option (List α)) :
      parts.foldl step start =
        start.bind fun done => (parts.foldl step (some [])).map (· ++ done) := by
    induction parts using List.reverseRecOn with
    | nil => cases start <;> rfl
    | append_singleton parts part ih =>
      rw [List.foldl_append, List.foldl_append, ih]
      cases start with
      | none => exact stops part
      | some done =>
        cases parts.foldl step (some []) with
        | none => simp [stops]
        | some gathered => cases part <;> simp [lacks, takes]
  rw [allSome, List.foldl_cons, grown]
  · cases part with
    | none => rfl
    | some value =>
      simp only [allSome, Option.bind_some, Option.map_map]
      congr 1
      funext gathered
      simp
  · exact fun done value => rfl
  · exact fun part => rfl
  · exact fun done => by cases done <;> rfl

theorem allSome_map_some {α : Type} (values : List α) : allSome (values.map some) = some values := by
  induction values with
  | nil => rfl
  | cons value values ih => rw [List.map_cons, allSome_cons, ih, Option.bind_some, Option.map_some]

/-- What is collected is all there was. -/
theorem allSome_eq_some {α : Type} {parts : List (Option α)} {values : List α}
    (all : allSome parts = some values) : parts = values.map some := by
  induction parts generalizing values with
  | nil =>
    obtain rfl : [] = values := Option.some.inj all
    rfl
  | cons part parts ih =>
    rw [allSome_cons] at all
    obtain ⟨value, rfl, behind⟩ := Option.bind_eq_some_iff.1 all
    obtain ⟨others, rest, rfl⟩ := Option.map_eq_some_iff.1 behind
    rw [ih rest, List.map_cons]

mutual

/-- A value with the keys of every object in order, of several entries with one key the last. -/
def normal : Json → Json
  | .arr items => .arr (normalItems items)
  | .obj entries => .object (normalEntries entries)
  | other => other

def normalItems : List Json → List Json
  | [] => []
  | item :: rest => normal item :: normalItems rest

def normalEntries : List (String × Json) → List (String × Json)
  | [] => []
  | (key, value) :: rest => (key, normal value) :: normalEntries rest

end

mutual

theorem normal_eq_self (value : Json) (canonical : value.Canonical) : value.normal = value := by
  match value with
  | .null | .bool _ | .num _ | .str _ => rfl
  | .arr items => rw [normal, normalItems_eq_self items canonical]
  | .obj entries =>
    rw [normal, normalEntries_eq_self entries canonical.2, Json.object,
      Entries.ofList_of_sorted canonical.1]

theorem normalItems_eq_self (items : List Json) (canonical : CanonicalItems items) :
    normalItems items = items := by
  match items with
  | [] => rfl
  | item :: items =>
    rw [normalItems, normal_eq_self item canonical.1, normalItems_eq_self items canonical.2]

theorem normalEntries_eq_self (entries : List (String × Json))
    (canonical : CanonicalEntries entries) : normalEntries entries = entries := by
  match entries with
  | [] => rfl
  | (key, value) :: entries =>
    rw [normalEntries, normal_eq_self value canonical.1, normalEntries_eq_self entries canonical.2]

end

mutual

theorem Decoder.value_tree (value : Json) (whole : value.Whole) {depth : Nat}
    (shallow : value.nesting ≤ depth) : Decoder.value depth value.tree = some value.normal := by
  match value with
  | .null | .bool _ | .str _ => simp [tree, Decoder.value, normal]
  | .num (.int n) =>
    simp [tree, Numeral.ofText?_int, Decoder.value, Numeral.toNumber?_int whole.1 whole.2, normal]
  | .arr items =>
    obtain ⟨below, rfl⟩ := Nat.exists_eq_add_of_le' (Nat.le_trans (Nat.succ_pos _) shallow)
    rw [tree, Decoder.value, Decoder.value_treeItems items whole (Nat.le_of_succ_le_succ shallow),
      allSome_map_some, Option.map_some, normal]
  | .obj entries =>
    obtain ⟨below, rfl⟩ := Nat.exists_eq_add_of_le' (Nat.le_trans (Nat.succ_pos _) shallow)
    have decoded := Decoder.value_treeEntries entries whole (Nat.le_of_succ_le_succ shallow)
    rw [tree, Decoder.value]
    refine (congrArg (fun parts => (allSome parts).map Json.object) decoded).trans ?_
    rw [allSome_map_some, Option.map_some, normal]

theorem Decoder.value_treeItems (items : List Json) (whole : WholeItems items) {depth : Nat}
    (shallow : nestingItems items ≤ depth) :
    (treeItems items).map (Decoder.value depth) = (normalItems items).map some := by
  match items with
  | [] => rfl
  | item :: items =>
    obtain ⟨first, others⟩ := Nat.max_le.1 shallow
    simp only [treeItems, normalItems, List.map_cons, Decoder.value_tree item whole.1 first,
      Decoder.value_treeItems items whole.2 others]

theorem Decoder.value_treeEntries (entries : List (String × Json)) (whole : WholeEntries entries)
    {depth : Nat} (shallow : nestingEntries entries ≤ depth) :
    (treeEntries entries).map (fun (key, tree) =>
      match key, Decoder.value depth tree with
      | some key, some value => some (key, value)
      | _, _ => none) = (normalEntries entries).map some := by
  match entries with
  | [] => rfl
  | (key, value) :: entries =>
    obtain ⟨first, others⟩ := Nat.max_le.1 shallow
    simp only [treeEntries, normalEntries, List.map_cons, Decoder.value_tree value whole.1 first,
      Decoder.value_treeEntries entries whole.2 others]

end

theorem read?_print_normal {value : Json} (whole : value.Whole) (shallow : value.nesting ≤ maxDepth) :
    read? value.print = some value.normal := by
  rw [read?, decode?, ofText?_print whole, Option.bind_some, Decoder.value_tree value whole shallow]

theorem Decoder.word_tree {n : Nat} (small : n ≤ Text.maxWord) (depth : Nat) :
    Decoder.word depth (ofNat n).tree = some n := by
  rw [Text.maxWord, Nat.pow_eq] at small
  have read : (Numeral.ofInt n).toNumber? = some (.int n) := Numeral.toNumber?_int (by omega) (by omega)
  have word : (Number.int n).toWord? = some n := by
    simp [Number.toWord?]
  rw [ofNat, tree, Numeral.ofText?_int]
  dsimp only [Decoder.word]
  rw [read, Option.bind_some, word]

/-- Every natural number that is read fits 64 bits. -/
theorem Decoder.word_le {depth : Nat} {tree : Tree} {n : Nat}
    (read : Decoder.word depth tree = some n) : n ≤ Text.maxWord := by
  unfold Decoder.word at read
  split at read
  next numeral =>
    obtain ⟨number, whole, word⟩ := Option.bind_eq_some_iff.1 read
    obtain rfl : number = .int n := by
      unfold Number.toWord? at word
      split at word
      · rw [Option.some.inj word]
        rfl
      · cases word
    have bound := Numeral.gather_le (Nat.zero_le Text.maxWord) numeral.whole
    have notFloat : numeral.magnitude?.map (fun steps => Number.float ⟨numeral.negative, steps⟩) ≠
        some (.int n) := by
      cases numeral.magnitude? <;> simp
    unfold Numeral.toNumber? at whole
    dsimp only at whole
    split at whole
    next => exact absurd whole notFloat
    next =>
      split at whole
      next significand all =>
        rw [all] at bound
        split at whole
        · have same : (significand : Int) = n := Number.int.inj (Option.some.inj whole)
          omega
        split at whole
        · have same : -(significand : Int) = n := Number.int.inj (Option.some.inj whole)
          omega
        · exact absurd whole notFloat
      next => exact absurd whole notFloat
  next => cases read

/-- Reading a printed document gives the document back. -/
theorem read?_print {document : Json} (portable : document.Portable) :
    read? document.print = some document := by
  rw [read?_print_normal portable.whole portable.shallow, normal_eq_self _ portable.canonical]

end Json

end SearchRelay
