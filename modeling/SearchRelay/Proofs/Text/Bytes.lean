import Mathlib
import SearchRelay.Text.Occurrence
import SearchRelay.Text.Utf8

/-!
Texts as bytes. The bytes of texts one after the other stand one after the other, each byte belongs
to one character, and folding case moves none of them, since the letters that it changes are single
bytes.
-/

namespace SearchRelay.Text

/-- The bytes from one place to another. -/
def slice (bytes : Bytes) (place : Nat × Nat) : Bytes := (bytes.take place.2).drop place.1

theorem slice_append (before inside after : Bytes) :
    slice (before ++ inside ++ after) (before.length, before.length + inside.length) = inside := by
  rw [slice, ← List.length_append, List.take_left, List.drop_left]

theorem encode_cons (c : Char) (rest : List Char) :
    encode (c :: rest) = String.utf8EncodeChar c ++ encode rest := rfl

theorem encode_append (before after : List Char) :
    encode (before ++ after) = encode before ++ encode after := List.flatMap_append

theorem byteLength_eq (text : List Char) : byteLength text = (encode text).length := by
  have counted (count : Nat) :
      text.foldl (fun bytes c => bytes + c.utf8Size) count = count + (encode text).length := by
    induction text generalizing count with
    | nil => rfl
    | cons c rest ih =>
      rw [List.foldl_cons, ih, encode_cons, List.length_append, String.length_utf8EncodeChar,
        Nat.add_assoc]
  rw [byteLength, counted, Nat.zero_add]

theorem byteLength_append (before after : List Char) :
    byteLength (before ++ after) = byteLength before + byteLength after := by
  rw [byteLength_eq, byteLength_eq, byteLength_eq, encode_append, List.length_append]

theorem byteLength_pos {text : List Char} (nonempty : text ≠ []) : 0 < byteLength text := by
  obtain ⟨c, rest, rfl⟩ := List.exists_cons_of_ne_nil nonempty
  rw [byteLength_eq, encode_cons, List.length_append, String.length_utf8EncodeChar]
  exact Nat.add_pos_left c.utf8Size_pos _

theorem utf8Size_toLower (c : Char) : c.toLower.utf8Size = c.utf8Size := by
  unfold Char.toLower
  split
  next upper =>
    -- a capital letter and the small one are single bytes
    have low : 65 ≤ c.val.toNat := UInt32.le_iff_toNat_le.1 upper.1
    have high : c.val.toNat ≤ 90 := UInt32.le_iff_toNat_le.1 upper.2
    have small : c.val ≤ 127 := UInt32.le_iff_toNat_le.2 (Nat.le_trans high (by decide))
    have sum : (c.val + 32).toNat = c.val.toNat + 32 := by
      rw [UInt32.toNat_add]
      exact Nat.mod_eq_of_lt (Nat.lt_of_le_of_lt (Nat.add_le_add_right high 32) (by decide))
    have lowered : c.val + 32 ≤ 127 := by
      rw [UInt32.le_iff_toNat_le, sum]
      exact Nat.add_le_add_right (Nat.le_trans high (by decide : 90 ≤ 95)) 32
    simp [Char.utf8Size, small, lowered]
  next => rfl

theorem byteLength_fold (text : List Char) : byteLength (fold text) = byteLength text := by
  induction text with
  | nil => rfl
  | cons c rest ih =>
    have first := byteLength_append [c.toLower] (fold rest)
    have plain := byteLength_append [c] rest
    have size (c : Char) : byteLength [c] = c.utf8Size := Nat.zero_add _
    rw [size, utf8Size_toLower, ih] at first
    rw [size] at plain
    exact first.trans plain.symm

theorem byteLength_mono {start text : List Char} (starts : start <+: text) :
    byteLength start ≤ byteLength text := by
  obtain ⟨rest, rfl⟩ := starts
  rw [byteLength_append]
  exact Nat.le_add_right _ _

theorem byteLength_lt {start text : List Char} (starts : start <+: text)
    (shorter : start.length < text.length) : byteLength start < byteLength text := by
  obtain ⟨rest, rfl⟩ := starts
  have nonempty : rest ≠ [] := fun empty => by simp [empty] at shorter
  rw [byteLength_append]
  exact Nat.lt_add_of_pos_right (byteLength_pos nonempty)

/-- The beginnings of a text are ordered by their bytes as they are by their characters. -/
theorem byteLength_le_iff {text first second : List Char} (one : first <+: text)
    (other : second <+: text) :
    byteLength first ≤ byteLength second ↔ first.length ≤ second.length := by
  constructor
  · intro fewer
    by_contra longer
    have inside := List.prefix_of_prefix_length_le other one (Nat.le_of_not_le longer)
    exact absurd (byteLength_lt inside (Nat.lt_of_not_le longer)) (Nat.not_lt.2 fewer)
  · exact fun shorter => byteLength_mono (List.prefix_of_prefix_length_le one other shorter)

/-- Each byte of a text belongs to one of its characters. -/
theorem exists_char {text : List Char} {place : Nat} (inside : place < byteLength text) :
    ∃ before c after, text = before ++ c :: after ∧ byteLength before ≤ place ∧
      place < byteLength (before ++ [c]) := by
  induction text generalizing place with
  | nil => cases inside
  | cons first rest ih =>
    have whole : byteLength (first :: rest) = byteLength [first] + byteLength rest :=
      byteLength_append [first] rest
    by_cases here : place < byteLength [first]
    · exact ⟨[], first, rest, rfl, Nat.zero_le _, here⟩
    · have later : place - byteLength [first] < byteLength rest := by omega
      obtain ⟨before, c, after, rfl, low, high⟩ := ih later
      have moved (late : List Char) :
          byteLength (first :: late) = byteLength [first] + byteLength late :=
        byteLength_append [first] late
      refine ⟨first :: before, c, after, rfl, ?_, ?_⟩
      · rw [moved]; omega
      · rw [List.cons_append, moved]; omega

end SearchRelay.Text
