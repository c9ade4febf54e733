import SearchRelay.Json.Basic
import SearchRelay.Proofs.Entries

/-!
Equality of values. Numbers compare as numbers, so two values are equal as soon as they agree once
the signs of their zeros are left out, and equal values equal the same ones.
-/

namespace SearchRelay

/-- The same number, with the sign of zero left out. -/
def Number.unsigned : Number → Number
  | .int n => .int n
  | .float x => .float (if x.steps = 0 then .zero false else x)

theorem Number.same_iff {a b : Number} : a.same b ↔ a.unsigned = b.unsigned := by
  cases a with
  | int a => cases b <;> simp [same, unsigned]
  | float a =>
    cases b with
    | int b => simp [same, unsigned]
    | float b =>
      obtain ⟨left, m⟩ := a
      obtain ⟨right, n⟩ := b
      simp only [same, Binary64.same, Binary64.value, unsigned, Binary64.zero, beq_iff_eq, float.injEq]
      cases left <;> cases right <;> grind

namespace Json

mutual

/-- The same value, with the sign of every zero left out. -/
def unsigned : Json → Json
  | .num number => .num number.unsigned
  | .arr items => .arr (unsignedItems items)
  | .obj entries => .obj (unsignedEntries entries)
  | other => other

def unsignedItems : List Json → List Json
  | [] => []
  | item :: rest => item.unsigned :: unsignedItems rest

def unsignedEntries : List (String × Json) → List (String × Json)
  | [] => []
  | (key, value) :: rest => (key, value.unsigned) :: unsignedEntries rest

end

mutual

/-- Two values are equal if they differ in the signs of zeros at most. -/
theorem same_iff (a b : Json) : a.same b ↔ a.unsigned = b.unsigned := by
  match a, b with
  | .num a, .num b => simp [same, unsigned, Number.same_iff]
  | .arr a, .arr b => simp [same, unsigned, sameItems_iff a b]
  | .obj a, .obj b => simp [same, unsigned, sameEntries_iff a b]
  | .null, b | .bool _, b | .str _, b => cases b <;> simp [same, unsigned]
  | .num a, .null | .num a, .bool _ | .num a, .str _ | .num a, .arr _ | .num a, .obj _ =>
    simp [same, unsigned]
  | .arr a, .null | .arr a, .bool _ | .arr a, .str _ | .arr a, .num _ | .arr a, .obj _ =>
    simp [same, unsigned]
  | .obj a, .null | .obj a, .bool _ | .obj a, .str _ | .obj a, .num _ | .obj a, .arr _ =>
    simp [same, unsigned]

theorem sameItems_iff (a b : List Json) : sameItems a b ↔ unsignedItems a = unsignedItems b := by
  match a, b with
  | [], [] => simp [sameItems]
  | [], _ :: _ | _ :: _, [] => simp [sameItems, unsignedItems]
  | a :: as, b :: bs => simp [sameItems, unsignedItems, same_iff a b, sameItems_iff as bs]

theorem sameEntries_iff (a b : List (String × Json)) :
    sameEntries a b ↔ unsignedEntries a = unsignedEntries b := by
  match a, b with
  | [], [] => simp [sameEntries]
  | [], (_, _) :: _ | (_, _) :: _, [] => simp [sameEntries, unsignedEntries]
  | (key, a) :: as, (other, b) :: bs =>
    simp [sameEntries, unsignedEntries, same_iff a b, sameEntries_iff as bs, and_assoc]

end

theorem beq_congr {a b : Json} (equal : a.unsigned = b.unsigned) (other : Json) :
    (other == a) = (other == b) := by
  rw [Bool.eq_iff_iff]
  exact (same_iff other a).trans (equal ▸ (same_iff other b).symm)

theorem Number.unsigned_unsigned (number : Number) : number.unsigned.unsigned = number.unsigned := by
  cases number with
  | int n => rfl
  | float x =>
    rw [Number.unsigned, Number.unsigned]
    split
    next => rfl
    next => rfl

mutual

theorem unsigned_unsigned (value : Json) : value.unsigned.unsigned = value.unsigned := by
  match value with
  | .null | .bool _ | .str _ => rfl
  | .num number => simp [unsigned, Number.unsigned_unsigned]
  | .arr items => simp [unsigned, unsignedItems_unsigned items]
  | .obj entries => simp [unsigned, unsignedEntries_unsigned entries]

theorem unsignedItems_unsigned (items : List Json) :
    unsignedItems (unsignedItems items) = unsignedItems items := by
  match items with
  | [] => rfl
  | item :: rest => simp [unsignedItems, unsigned_unsigned item, unsignedItems_unsigned rest]

theorem unsignedEntries_unsigned (entries : List (String × Json)) :
    unsignedEntries (unsignedEntries entries) = unsignedEntries entries := by
  match entries with
  | [] => rfl
  | (key, value) :: rest =>
    simp [unsignedEntries, unsigned_unsigned value, unsignedEntries_unsigned rest]

end

theorem get?_unsigned (body : Json) (key : String) :
    body.unsigned.get? key = (body.get? key).map unsigned := by
  cases body with
  | obj entries =>
    simp only [unsigned, get?]
    induction entries with
    | nil => rfl
    | cons entry rest ih =>
      obtain ⟨other, value⟩ := entry
      rw [unsignedEntries, Entries.find?_cons, Entries.find?_cons, ih]
      split
      next => rfl
      next => rfl
  | null | bool | num | str | arr => rfl

end Json

end SearchRelay
