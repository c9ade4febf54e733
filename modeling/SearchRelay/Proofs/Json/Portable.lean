import Mathlib
import SearchRelay.Json.Decode
import SearchRelay.Proofs.Entries

/-!
The documents that survive a text form: keys in order, whole numbers of 64 bits, and no more
nesting than a reader takes. Everything the indexer writes by itself is of this kind.
-/

namespace SearchRelay.Json

mutual

/-- The number of arrays and objects inside each other. -/
def nesting : Json → Nat
  | .arr items => nestingItems items + 1
  | .obj entries => nestingEntries entries + 1
  | _ => 0

def nestingItems : List Json → Nat
  | [] => 0
  | item :: rest => max (nesting item) (nestingItems rest)

def nestingEntries : List (String × Json) → Nat
  | [] => 0
  | (_, value) :: rest => max (nesting value) (nestingEntries rest)

end

mutual

/-- Every number is an integer of 64 bits. -/
def Whole : Json → Prop
  | .num (.int n) => -2 ^ 63 ≤ n ∧ n < 2 ^ 64
  | .num (.float _) => False
  | .arr items => WholeItems items
  | .obj entries => WholeEntries entries
  | _ => True

def WholeItems : List Json → Prop
  | [] => True
  | item :: rest => Whole item ∧ WholeItems rest

def WholeEntries : List (String × Json) → Prop
  | [] => True
  | (_, value) :: rest => Whole value ∧ WholeEntries rest

end

/-- A document that a reader takes back from its text. -/
structure Portable (document : Json) : Prop where
  canonical : document.Canonical
  whole : document.Whole
  shallow : document.nesting ≤ maxDepth

theorem canonicalEntries_iff {entries : List (String × Json)} :
    CanonicalEntries entries ↔ ∀ entry ∈ entries, entry.2.Canonical := by
  induction entries with
  | nil => simp [CanonicalEntries]
  | cons entry rest ih => simp [CanonicalEntries, ih]

theorem wholeEntries_iff {entries : List (String × Json)} :
    WholeEntries entries ↔ ∀ entry ∈ entries, entry.2.Whole := by
  induction entries with
  | nil => simp [WholeEntries]
  | cons entry rest ih => simp [WholeEntries, ih]

theorem nestingEntries_le_iff {entries : List (String × Json)} {bound : Nat} :
    nestingEntries entries ≤ bound ↔ ∀ entry ∈ entries, entry.2.nesting ≤ bound := by
  induction entries with
  | nil => simp [nestingEntries]
  | cons entry rest ih => simp only [nestingEntries, List.forall_mem_cons, Nat.max_le, ih]

theorem Portable.str (text : String) : Portable (.str text) :=
  ⟨trivial, trivial, Nat.zero_le _⟩

theorem Portable.ofNat {n : Nat} (small : n < 2 ^ 64) : Portable (.ofNat n) := by
  refine ⟨trivial, ?_, Nat.zero_le _⟩
  simp only [Json.ofNat, Whole]
  omega

theorem Portable.obj {entries : List (String × Json)} (sorted : Entries.Sorted entries)
    (members : ∀ entry ∈ entries, entry.2.Portable)
    (shallow : ∀ entry ∈ entries, entry.2.nesting < maxDepth) : Portable (.obj entries) := by
  refine ⟨⟨sorted, canonicalEntries_iff.2 fun entry inside => (members entry inside).canonical⟩,
    wholeEntries_iff.2 fun entry inside => (members entry inside).whole, ?_⟩
  have bound : nestingEntries entries ≤ maxDepth - 1 :=
    nestingEntries_le_iff.2 fun entry inside => Nat.le_pred_of_lt (shallow entry inside)
  simp only [nesting, maxDepth] at bound ⊢
  omega

theorem Portable.object {entries : List (String × Json)}
    (members : ∀ entry ∈ entries, entry.2.Portable)
    (shallow : ∀ entry ∈ entries, entry.2.nesting < maxDepth) : Portable (.object entries) :=
  .obj (Entries.sorted_ofList entries)
    (fun entry inside => members entry (Entries.mem_of_mem_ofList inside))
    (fun entry inside => shallow entry (Entries.mem_of_mem_ofList inside))

theorem nesting_object_le {entries : List (String × Json)} {bound : Nat}
    (members : ∀ entry ∈ entries, entry.2.nesting ≤ bound) :
    (object entries).nesting ≤ bound + 1 := by
  apply Nat.succ_le_succ
  apply nestingEntries_le_iff.2
  exact fun entry inside => members entry (Entries.mem_of_mem_ofList inside)

theorem Portable.set {document value : Json} (portable : document.Portable) (key : String)
    (scalar : value.Portable) (flat : value.nesting = 0) : (document.set key value).Portable := by
  cases document with
  | null | bool _ | num _ | str _ | arr _ => exact portable
  | obj entries =>
    obtain ⟨⟨sorted, canonical⟩, whole, shallow⟩ := portable
    have member {entry : String × Json} (inside : entry ∈ Entries.insert key value entries) :
        entry = (key, value) ∨ entry ∈ entries := Entries.mem_of_mem_insert inside
    refine ⟨⟨Entries.sorted_insert key value sorted, canonicalEntries_iff.2 ?_⟩,
      wholeEntries_iff.2 ?_, ?_⟩
    · intro entry inside
      rcases member inside with rfl | old
      · exact scalar.canonical
      · exact canonicalEntries_iff.1 canonical entry old
    · intro entry inside
      rcases member inside with rfl | old
      · exact scalar.whole
      · exact wholeEntries_iff.1 whole entry old
    · have bound : nestingEntries (Entries.insert key value entries) ≤ nestingEntries entries := by
        apply nestingEntries_le_iff.2
        intro entry inside
        rcases member inside with rfl | old
        · simp only [flat, Nat.zero_le]
        · exact nestingEntries_le_iff.1 (Nat.le_refl _) entry old
      exact Nat.le_trans (Nat.succ_le_succ bound) shallow

end SearchRelay.Json
