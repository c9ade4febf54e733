import SearchRelay.Json.Basic

/-!
Values that have a form as a document. Texts, numbers, truth values, lists and pairs have the
obvious one; a value that is missing is null.
-/

namespace SearchRelay

class Encode (α : Type) where
  encode : α → Json

export Encode (encode)

instance : Encode Json := ⟨id⟩
instance : Encode String := ⟨.str⟩
instance : Encode (List Char) := ⟨fun text => .str (String.ofList text)⟩
instance : Encode Nat := ⟨.ofNat⟩
instance : Encode Bool := ⟨.bool⟩
instance : Encode Unit := ⟨fun _ => .null⟩
instance [Encode α] : Encode (Option α) := ⟨fun value => (value.map encode).getD .null⟩
instance [Encode α] : Encode (List α) := ⟨fun values => .arr (values.map encode)⟩
instance [Encode α] [Encode β] : Encode (α × β) := ⟨fun (a, b) => .arr [encode a, encode b]⟩

/-- A document with entries, the later of two with one name counting. -/
def Json.ofEntries [Encode α] (entries : List (String × α)) : Json :=
  .object (entries.map fun (name, value) => (name, encode value))

end SearchRelay
