import Mathlib
import SearchRelay.Text.Utf8

/-!
The decoder of bytes undoes the encoding of text: the bytes of a text hold no fault, and their
characters are those of the text.
-/

namespace SearchRelay.Text

theorem decodeFrom_cons (state : Option Partial) (done : List (Option Char)) (byte : UInt8)
    (rest : Bytes) : decodeFrom state done (byte :: rest) =
      decodeFrom (takeByte state done byte.toNat).1 (takeByte state done byte.toNat).2 rest := rfl

/-- A byte in the range that a partial character expects continues it. -/
theorem takeByte_part {value left low high byte : Nat} (above : low ≤ byte) (below : byte ≤ high)
    (done : List (Option Char)) :
    takeByte (some ⟨value, left, low, high⟩) done byte =
      if left ≤ 1 then (none, some (Char.ofNat (value * 64 + (byte - 0x80))) :: done)
      else (some ⟨value * 64 + (byte - 0x80), left - 1, 0x80, 0xBF⟩, done) := by
  simp [takeByte, above, below]

section
variable (byte : Nat) (done : List (Option Char))

theorem begin_whole (small : byte < 0x80) : begin done byte = (none, some (Char.ofNat byte) :: done) := by
  simp [begin, lead, small]

theorem begin_two (above : 0xC2 ≤ byte) (below : byte < 0xE0) :
    begin done byte = (some ⟨byte - 0xC0, 1, 0x80, 0xBF⟩, done) := by
  unfold begin lead
  rw [if_neg (by omega), if_neg (by omega), if_pos below]

theorem begin_three (above : 0xE0 ≤ byte) (below : byte < 0xF0) :
    begin done byte = (some ⟨byte - 0xE0, 2, if byte = 0xE0 then 0xA0 else 0x80,
      if byte = 0xED then 0x9F else 0xBF⟩, done) := by
  unfold begin lead
  rw [if_neg (by omega), if_neg (by omega), if_neg (by omega), if_pos below]

theorem begin_four (above : 0xF0 ≤ byte) (below : byte < 0xF5) :
    begin done byte = (some ⟨byte - 0xF0, 3, if byte = 0xF0 then 0x90 else 0x80,
      if byte = 0xF4 then 0x8F else 0xBF⟩, done) := by
  unfold begin lead
  rw [if_neg (by omega), if_neg (by omega), if_neg (by omega), if_neg (by omega), if_pos below]

end

theorem decodeFrom_char (c : Char) (done : List (Option Char)) (rest : Bytes) :
    decodeFrom none done (String.utf8EncodeChar c ++ rest) = decodeFrom none (some c :: done) rest := by
  have scalar : c.val.toNat < 0xD800 ∨ 0xDFFF < c.val.toNat ∧ c.val.toNat < 0x110000 := c.valid
  have back : Char.ofNat c.val.toNat = c := Char.ofNat_toNat c
  have same {n : Nat} (code : n = c.val.toNat) : Char.ofNat n = c := code ▸ back
  have byte {n : Nat} (small : n < 256) : (UInt8.ofNat n).toNat = n := UInt8.toNat_ofNat_of_lt' small
  unfold String.utf8EncodeChar
  generalize c.val.toNat = code at scalar same
  dsimp only
  split
  next small =>
    have first := begin_whole code done (by omega)
    simp only [List.cons_append, List.nil_append, decodeFrom_cons, byte (show code < 256 by omega)]
    simp only [takeByte, first, same rfl]
  split
  next large small =>
    have first := begin_two (code / 64 % 32 + 192) done (by omega) (by omega)
    simp only [List.cons_append, List.nil_append, decodeFrom_cons,
      byte (show code / 64 % 32 + 192 < 256 by omega), byte (show code % 64 + 128 < 256 by omega)]
    rw [show takeByte none done (code / 64 % 32 + 192) = _ from first,
      takeByte_part (by omega) (by omega), if_pos (by omega), same (by omega)]
  split
  next large small =>
    have first := begin_three (code / 4096 % 16 + 224) done (by omega) (by omega)
    simp only [List.cons_append, List.nil_append, decodeFrom_cons,
      byte (show code / 4096 % 16 + 224 < 256 by omega),
      byte (show code / 64 % 64 + 128 < 256 by omega), byte (show code % 64 + 128 < 256 by omega)]
    -- the first continuation is in range: the code is neither overlong nor a surrogate
    rw [show takeByte none done (code / 4096 % 16 + 224) = _ from first,
      takeByte_part (by split <;> omega) (by split <;> omega), if_neg (by omega),
      takeByte_part (by omega) (by omega), if_pos (by omega), same (by omega)]
  next large =>
    have first := begin_four (code / 262144 % 8 + 240) done (by omega) (by omega)
    simp only [List.cons_append, List.nil_append, decodeFrom_cons,
      byte (show code / 262144 % 8 + 240 < 256 by omega),
      byte (show code / 4096 % 64 + 128 < 256 by omega),
      byte (show code / 64 % 64 + 128 < 256 by omega), byte (show code % 64 + 128 < 256 by omega)]
    rw [show takeByte none done (code / 262144 % 8 + 240) = _ from first,
      takeByte_part (by split <;> omega) (by split <;> omega), if_neg (by omega),
      takeByte_part (by omega) (by omega), if_neg (by omega),
      takeByte_part (by omega) (by omega), if_pos (by omega), same (by omega)]

theorem decode_encode (text : List Char) : decode (encode text) = text.map some := by
  have grown (text : List Char) (done : List (Option Char)) :
      decodeFrom none done (encode text) = done.reverse ++ text.map some := by
    induction text generalizing done with
    | nil => simp [encode, decodeFrom]
    | cons c text ih =>
      have split : encode (c :: text) = String.utf8EncodeChar c ++ encode text := rfl
      rw [split, decodeFrom_char, ih]
      simp
  exact grown text []

theorem decode?_encode (text : List Char) : decode? (encode text) = some text := by
  simp [decode?, decode_encode, List.filterMap_map]

/-- A reader of documents gets the text of bytes that were encoded. -/
theorem decodeDocument_encode (text : List Char) : decodeDocument (encode text) = text := by
  rw [decodeDocument, decode_encode, List.flatMap_map]
  exact List.flatMap_singleton' text

end SearchRelay.Text
