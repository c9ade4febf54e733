import SearchRelay.Proofs.Text.Decimal
import SearchRelay.Proofs.Text.Words
import SearchRelay.Proofs.Time.Calendar
import SearchRelay.Time.Instant

/-!
A point in time is read back from its text, when its year has four digits and it lies in no leap
second. All numbers of such a text have a fixed width, and only the fraction of the second is as
short as it can be.
-/

namespace SearchRelay.Instant

/-! ### Numbers of a fixed width -/

theorem readDigits_zeros (count : Nat) (text : List Char) :
    Text.readDigits 0 (List.replicate count '0' ++ text) = Text.readDigits 0 text := by
  induction count with
  | zero => rfl
  | succ count ih => exact ih

section
variable {width n : Nat}

theorem isDigit_of_mem_padded {c : Char} (inside : c ∈ padded width n) : c.isDigit := by
  rcases List.mem_append.1 inside with zero | digit
  · obtain rfl := List.eq_of_mem_replicate zero
    rfl
  · exact Text.isDigit_of_mem_decimal digit

theorem length_padded (wide : 0 < width) (fits : n < 10 ^ width) : (padded width n).length = width := by
  have short : (Text.decimal n).length ≤ width := (Nat.length_toDigits_le_iff (by decide) wide).2 fits
  rw [padded, List.length_append, List.length_replicate]
  omega

theorem padded_cons (width n : Nat) : ∃ first more, padded width n = first :: more ∧ first.isDigit := by
  obtain ⟨first, more, split⟩ : ∃ first more, padded width n = first :: more :=
    List.exists_cons_of_ne_nil (List.append_ne_nil_of_right_ne_nil _ (Text.decimal_ne_nil n))
  exact ⟨first, more, split, isDigit_of_mem_padded (by rw [split]; exact List.mem_cons_self)⟩

theorem readDigits_padded (width : Nat) (small : n ≤ Text.maxWord) :
    Text.readDigits 0 (padded width n) = some n := by
  rw [padded, readDigits_zeros, Text.readDigits_decimal small]

/-- A number ends with its digits, where no more are asked for or no more come. -/
theorem digits?_padded {most : Nat} (wide : 0 < width) (fits : n < 10 ^ width)
    (enough : width ≤ most) (small : most ≤ 18) {rest : List Char}
    (ends : width = most ∨ rest.takeWhile Char.isDigit = []) :
    digits? most (padded width n ++ rest) = some (n, rest) := by
  have long := length_padded wide fits
  have bound : n < 10 ^ 18 := fits.trans_le (Nat.pow_le_pow_right (by decide) (by omega))
  have rest_end : (rest.take (most - width)).takeWhile Char.isDigit = [] := by
    rcases ends with rfl | ends
    · rw [Nat.sub_self]
      rfl
    · rw [← List.take_takeWhile, ends, List.take_nil]
  have digits : ((padded width n ++ rest).take most).takeWhile Char.isDigit = padded width n := by
    rw [List.take_append, List.take_of_length_le (by omega),
      List.takeWhile_append_of_pos fun c inside => isDigit_of_mem_padded inside, long, rest_end,
      List.append_nil]
  have some_digit : (padded width n).isEmpty = false := by
    obtain ⟨first, more, split, _⟩ := padded_cons width n
    rw [split, List.isEmpty_cons]
  have read : Text.readDigits 0 (padded width n) = some n :=
    readDigits_padded width (by rw [Text.maxWord, Nat.pow_eq]; omega)
  have word : n < Nat.pow 2 63 := by rw [Nat.pow_eq]; omega
  unfold digits?
  dsimp only
  simp [digits, some_digit, read, word]

theorem skipBlanks_padded (width n : Nat) (rest : List Char) :
    skipBlanks (padded width n ++ rest) = padded width n ++ rest := by
  obtain ⟨first, more, split, digit⟩ := padded_cons width n
  rw [split, List.cons_append, skipBlanks, List.dropWhile_cons_of_neg]
  simp [Text.isSpace_of_isDigit digit]

theorem two?_padded {low high : Nat} (above : low ≤ n) (below : n ≤ high) (small : n < 100)
    (rest : List Char) : two? low high (padded 2 n ++ rest) = some (n, rest) := by
  rw [two?, skipBlanks_padded,
    digits?_padded (by decide) small (Nat.le_refl 2) (by decide) (Or.inl rfl)]
  simp [above, below]

theorem year?_padded (small : n < 10000) (rest : List Char) :
    year? (padded 4 n ++ rest) = some ((n : Int), rest) := by
  obtain ⟨first, more, split, digit⟩ := padded_cons 4 n
  have read : digits? 4 (padded 4 n ++ rest) = some (n, rest) :=
    digits?_padded (by decide) small (Nat.le_refl 4) (by decide) (Or.inl rfl)
  rw [year?, skipBlanks_padded]
  rw [split, List.cons_append] at read ⊢
  dsimp only
  split
  next same =>
    obtain rfl := (List.cons.inj same).1
    cases digit
  next same =>
    obtain rfl := (List.cons.inj same).1
    cases digit
  next => rw [read]; rfl

end

theorem separator?_cons {mark : Char} (solid : Text.isSpace mark = false) (rest : List Char) :
    separator? mark (mark :: rest) = some rest := by
  simp [separator?, skipBlanks, solid]

/-! ### The fraction of a second -/

theorem fraction?_padded {width part nanos : Nat} (wide : 0 < width) (most : width ≤ 9)
    (fits : part < 10 ^ width) (scaled : part * 10 ^ (9 - width) = nanos) {c : Char}
    (mark : c.isDigit = false) (rest : List Char) :
    fraction? ('.' :: padded width part ++ c :: rest) = some (nanos, c :: rest) := by
  have long := length_padded wide fits
  have ends : (c :: rest).takeWhile Char.isDigit = [] := by simp [mark]
  have used : (padded width part ++ c :: rest).length - (c :: rest).length = width := by
    rw [List.length_append, long, Nat.add_sub_cancel]
  rw [List.cons_append, fraction?, digits?_padded wide fits most (by decide) (Or.inr ends)]
  simp only [Option.bind_eq_bind, Option.bind_some, used, Nat.pow_eq, scaled]
  simp [mark]

theorem fraction?_fractionText {nanos : Nat} (fits : nanos < billion) {c : Char}
    (mark : c.isDigit = false) (notPoint : c ≠ '.') (rest : List Char) :
    fraction? (fractionText nanos ++ c :: rest) = some (nanos, c :: rest) := by
  unfold billion at fits
  unfold fractionText
  split
  next none => simp [fraction?, notPoint, none]
  split
  next millis => exact fraction?_padded (by decide) (by decide) (by omega) (by omega) mark rest
  split
  next micros => exact fraction?_padded (by decide) (by decide) (by omega) (by omega) mark rest
  next => exact fraction?_padded (by decide) (by decide) fits (by omega) mark rest

/-! ### Whole texts -/

/-- The date, in universal time. -/
def date (instant : Instant) : Date := Date.ofDays (instant.seconds / daySeconds)

theorem isValid_date (instant : Instant) : instant.date.isValid := Date.isValid_ofDays _

/-- A time in the years of four digits, in no leap second. -/
structure Ordinary (instant : Instant) : Prop where
  first : 0 ≤ instant.date.year
  last : instant.date.year ≤ 9999
  plain : instant.nanos < billion

instance (instant : Instant) : Decidable instant.Ordinary :=
  decidable_of_iff (0 ≤ instant.date.year ∧ instant.date.year ≤ 9999 ∧ instant.nanos < billion)
    ⟨fun ⟨first, last, plain⟩ => ⟨first, last, plain⟩, fun ordinary =>
      ⟨ordinary.first, ordinary.last, ordinary.plain⟩⟩

theorem clockText_append {instant : Instant} (ordinary : instant.Ordinary) (rest : List Char) :
    instant.clockText ++ rest =
      padded 4 instant.date.year.toNat ++ '-' :: (padded 2 instant.date.month ++
        '-' :: (padded 2 instant.date.day ++ 'T' ::
          (padded 2 ((instant.seconds % daySeconds).toNat / 3600) ++
            ':' :: (padded 2 ((instant.seconds % daySeconds).toNat / 60 % 60) ++
              ':' :: (padded 2 ((instant.seconds % daySeconds).toNat % 60) ++
                (fractionText instant.nanos ++ rest)))))) := by
  have year : yearText instant.date.year = padded 4 instant.date.year.toNat :=
    if_pos ⟨ordinary.first, ordinary.last⟩
  have noLeap : instant.nanos / billion = 0 := Nat.div_eq_of_lt ordinary.plain
  have fraction : instant.nanos % billion = instant.nanos := Nat.mod_eq_of_lt ordinary.plain
  rw [← year]
  simp only [clockText, noLeap, fraction, Nat.add_zero, List.append_assoc, List.cons_append]
  rfl

/-- The parts of a point in time give it back. -/
theorem ofParts_date {instant : Instant} (ordinary : instant.Ordinary) :
    ofParts instant.date ((instant.seconds % daySeconds).toNat / 3600)
      ((instant.seconds % daySeconds).toNat / 60 % 60) ((instant.seconds % daySeconds).toNat % 60)
      instant.nanos 0 = some instant := by
  obtain ⟨first, last, plain⟩ := ordinary
  have days : instant.date.toDays = instant.seconds / daySeconds := Date.toDays_ofDays _
  have low : minYear ≤ instant.date.year := Int.le_trans (by decide) first
  have high : instant.date.year ≤ maxYear := Int.le_trans last (by decide)
  have second : (instant.seconds % daySeconds).toNat % 60 ≠ 60 := by omega
  have day : 0 ≤ instant.seconds % daySeconds := Int.emod_nonneg _ (by decide)
  have whole : instant.seconds / daySeconds * daySeconds + instant.seconds % daySeconds =
      instant.seconds := Int.ediv_mul_add_emod _ _
  have clock : instant.date.toDays * daySeconds +
      ((instant.seconds % daySeconds).toNat / 3600 * 3600 +
        (instant.seconds % daySeconds).toNat / 60 % 60 * 60 +
          (instant.seconds % daySeconds).toNat % 60 : Nat) - 0 = instant.seconds := by
    rw [days]
    omega
  have shown : minYear ≤ (Date.ofDays (instant.seconds / daySeconds)).year ∧
      (Date.ofDays (instant.seconds / daySeconds)).year ≤ maxYear := ⟨low, high⟩
  rw [ofParts, if_pos ⟨isValid_date instant, low, high, by decide⟩]
  simp only [second, if_false, clock, shown, and_self, if_true]

/-- Reading undoes writing. -/
theorem parse?_zuluText {instant : Instant} (ordinary : instant.Ordinary) :
    parse? instant.zuluText = some instant := by
  have parts := ofParts_date ordinary
  have first := ordinary.first
  have last := ordinary.last
  obtain ⟨month, lastMonth, day, lastDay⟩ := Date.bounds_of_isValid (isValid_date instant)
  have dayEnds : (instant.seconds % daySeconds).toNat < 86400 := by
    have ends : instant.seconds % daySeconds < daySeconds := Int.emod_lt_of_pos _ (by decide)
    unfold daySeconds at ends ⊢
    omega
  have whole : (⟨(instant.date.year.toNat : Int), instant.date.month, instant.date.day⟩ : Date) =
      instant.date := by
    rw [Int.toNat_of_nonneg first]
  have next {α β : Type} {read : Option α} {value : α} {more : α → Option β} {result : Option β}
      (known : read = some value) (after : more value = result) : read.bind more = result := by
    rw [known, Option.bind_some, after]
  rw [zuluText, clockText_append ordinary]
  refine next (year?_padded (by omega) _) (next (separator?_cons rfl _) ?_)
  refine next (two?_padded month lastMonth (by omega) _) (next (separator?_cons rfl _) ?_)
  refine next (two?_padded day lastDay (by omega) _) ?_
  refine next (two?_padded (Nat.zero_le _) (by omega) (by omega) _) (next (separator?_cons rfl _) ?_)
  refine next (two?_padded (Nat.zero_le _) (by omega) (by omega) _) (next (separator?_cons rfl _) ?_)
  refine next (two?_padded (Nat.zero_le _) (by omega) (by omega) _) ?_
  refine next (fraction?_fractionText ordinary.plain rfl (by decide) []) (next rfl ?_)
  rw [← whole] at parts
  exact parts

end SearchRelay.Instant
