import SearchRelay.Proofs.Json.RoundTrip

/-!
Decimal numerals read back. A number has one numeral, which holds nothing but digits, and a
number that fits 64 bits is read from it.
-/

namespace SearchRelay.Text

/-! ### Reading digits -/

theorem readDigits_append {start value : Nat} {before : List Char}
    (read : readDigits start before = some value) (after : List Char) :
    readDigits start (before ++ after) = readDigits value after := by
  induction before generalizing start with
  | nil =>
    obtain rfl : start = value := by simpa [readDigits] using read
    rfl
  | cons c before ih =>
    simp only [readDigits, List.cons_append] at read ⊢
    split at read
    next fits => rw [if_pos fits, ih read]
    next => cases read

theorem readDigits_digit {value digit : Nat} (small : digit < 10)
    (fits : value * 10 + digit ≤ maxWord) :
    readDigits value [Nat.digitChar digit] = some (value * 10 + digit) := by
  have isDigit : ∀ digit < 10, (Nat.digitChar digit).isDigit := by decide
  simp [readDigits, digitValue_digitChar small, fits, isDigit digit small]

theorem readDigits_decimal {n : Nat} (fits : n ≤ maxWord) : readDigits 0 (decimal n) = some n := by
  induction n using Nat.strongRecOn with
  | ind n ih =>
    rcases Nat.lt_or_ge n 10 with small | large
    · rw [decimal, Nat.toDigits_of_lt_base small, readDigits_digit small (by omega)]
      simp
    · have earlier := ih (n / 10) (by omega) (by omega)
      have value : n / 10 * 10 + n % 10 = n := by omega
      rw [decimal_step large, readDigits_append earlier,
        readDigits_digit (Nat.mod_lt n (by decide)) (by omega), value]

/-- Whatever is read fits 64 bits. -/
theorem readDigits_le {start value : Nat} {text : List Char} (small : start ≤ maxWord)
    (read : readDigits start text = some value) : value ≤ maxWord := by
  induction text generalizing start with
  | nil =>
    obtain rfl : start = value := by simpa [readDigits] using read
    exact small
  | cons c text ih =>
    simp only [readDigits] at read
    split at read
    next fits =>
      apply ih _ read
      exact of_decide_eq_true (Bool.and_eq_true_iff.1 fits).2
    next => cases read

theorem readWord?_decimal {n : Nat} (fits : n ≤ maxWord) : readWord? (decimal n) = some n := by
  obtain ⟨first, more, split, digit, -⟩ := decimal_first n
  have unsigned : first ≠ '+' := by
    rintro rfl
    cases digit
  have read := readDigits_decimal fits
  rw [split] at read ⊢
  simp [readWord?, unsigned, read]

theorem readWord?_le {text : List Char} {value : Nat} (read : readWord? text = some value) :
    value ≤ maxWord := by
  have digits (rest : List Char)
      (found : (if rest.isEmpty then none else readDigits 0 rest) = some value) :
      value ≤ maxWord := by
    split at found
    next => cases found
    next => exact readDigits_le (Nat.zero_le _) found
  exact digits _ read

theorem decimal_injective {a b : Nat} (same : decimal a = decimal b) : a = b := by
  have digits := congrArg (Nat.ofDigitChars 10 · 0) same
  simpa [decimal] using digits

/-- Digits end where something else stands. -/
theorem takeWhile_digits {digits : List Char} (all : ∀ c ∈ digits, c.isDigit) {c : Char}
    (stop : ¬ c.isDigit) (rest : List Char) :
    (digits ++ c :: rest).takeWhile Char.isDigit = digits := by
  rw [List.takeWhile_append_of_pos all, List.takeWhile_cons_of_neg stop, List.append_nil]

theorem decimal_append_injective {a b : Nat} {rest other : List Char}
    (same : decimal a ++ '_' :: rest = decimal b ++ '_' :: other) : a = b ∧ rest = other := by
  have digits (n : Nat) (rest : List Char) :
      (decimal n ++ '_' :: rest).takeWhile Char.isDigit = decimal n :=
    takeWhile_digits (fun _ => isDigit_of_mem_decimal) (by decide) rest
  have fronts := congrArg (List.takeWhile Char.isDigit) same
  rw [digits, digits] at fronts
  rw [fronts, List.append_cancel_left_eq, List.cons.injEq] at same
  exact ⟨decimal_injective fronts, same.2⟩

end SearchRelay.Text
