import Mathlib.Data.List.Sort
import Mathlib.Order.Defs.LinearOrder

/-!
Sorts. By numbers that are all different a list has one order, however it was found, and a stable
sort keeps what it leaves equal in its place.
-/

namespace SearchRelay

theorem mergeSort_rising {α : Type} {number : α → Nat} {found items : List α}
    (rising : items.Pairwise fun a b => number a < number b) (perm : found.Perm items) :
    found.mergeSort (fun a b => number a ≤ number b) = items := by
  let before (a b : α) : Bool := number a ≤ number b
  have ordered : (found.mergeSort before).Pairwise fun a b => before a b := by
    apply List.pairwise_mergeSort
    · exact fun a b c => by simpa [before] using Nat.le_trans
    · exact fun a b => by simpa [before] using Nat.le_total _ _
  have members : (found.mergeSort before).Perm items := (List.mergeSort_perm found before).trans perm
  have apart : (items.map number).Nodup :=
    List.pairwise_map.2 (rising.imp fun less => Nat.ne_of_lt less)
  apply List.Perm.eq_of_pairwise _ ordered (rising.imp fun less => decide_eq_true (Nat.le_of_lt less))
    members
  intro a b first second less more
  apply List.inj_on_of_nodup_map apart (members.mem_iff.1 first) second
  exact Nat.le_antisymm (of_decide_eq_true less) (of_decide_eq_true more)

/-- Items can be compared by something that is told of them. -/
theorem transCmp_on {α β : Type} (compare : β → β → Ordering) [Std.TransCmp compare]
    (told : α → β) : Std.TransCmp fun a b => compare (told a) (told b) where
  eq_swap := by
    intro a b
    exact @Std.OrientedCmp.eq_swap _ compare _ (told a) (told b)
  isLE_trans := by
    intro a b c first second
    exact @Std.TransCmp.isLE_trans _ compare _ _ (told b) _ first second

/-- Items that never stand behind one without what they have come before all of these. -/
theorem filter_append_filter_not {α : Type} {items : List α} {has : α → Bool}
    (first : items.Pairwise fun a b => has b → has a) :
    items.filter has ++ items.filter (fun item => !has item) = items := by
  induction items with
  | nil => rfl
  | cons item rest ih =>
    obtain ⟨before, first⟩ := List.pairwise_cons.1 first
    by_cases here : has item
    · simp [here, ih first]
    · have nothing : rest.filter has = [] := by
        apply List.filter_eq_nil_iff.2
        intro other inside found
        exact here (before other inside found)
      have others : rest.filter (fun item => !has item) = rest := by
        simpa [nothing] using ih first
      simp [here, nothing, others]

section
variable {α : Type} {compare : α → α → Ordering}

theorem ne_gt_iff {a b : α} : compare a b != .gt ↔ (compare a b).isLE := by
  cases compare a b <;> decide

variable (compare) [Std.TransCmp compare]

theorem ne_gt_trans (a b c : α) (first : compare a b != .gt) (second : compare b c != .gt) :
    compare a c != .gt :=
  ne_gt_iff.2 (Std.TransCmp.isLE_trans (ne_gt_iff.1 first) (ne_gt_iff.1 second))

theorem ne_gt_total (a b : α) : (compare a b != .gt || compare b a != .gt) = true := by
  rw [@Std.OrientedCmp.eq_swap _ compare _ a b]
  cases compare b a <;> decide

variable {compare}

theorem pairwise_mergeSort_isLE (items : List α) :
    (items.mergeSort fun a b => compare a b != .gt).Pairwise fun a b => (compare a b).isLE := by
  have sorted := List.pairwise_mergeSort (ne_gt_trans compare) (ne_gt_total compare) items
  exact sorted.imp fun before => ne_gt_iff.1 before

/-- Items that are all equal keep their order. -/
theorem filter_mergeSort {has : α → Bool}
    (equal : ∀ a b, has a → has b → compare a b = .eq) (items : List α) :
    (items.mergeSort fun a b => compare a b != .gt).filter has = items.filter has := by
  have level : (items.filter has).Pairwise fun a b => compare a b != .gt := by
    apply List.pairwise_of_forall_mem_list
    intro a first b second
    rw [equal a b (List.mem_filter.1 first).2 (List.mem_filter.1 second).2]
    rfl
  have kept := (List.sublist_mergeSort (ne_gt_trans compare) (ne_gt_total compare) level
    List.filter_sublist).filter has
  rw [List.filter_filter] at kept
  simp only [Bool.and_self] at kept
  apply (kept.eq_of_length _).symm
  exact ((List.mergeSort_perm items _).filter has).length_eq.symm

theorem pairwise_mergeSort_stable {items : List α} {before : α → α → Prop}
    (ordered : items.Pairwise before) :
    (items.mergeSort fun a b => compare a b != .gt).Pairwise fun a b =>
      compare a b = .lt ∨ compare a b = .eq ∧ before a b := by
  induction items with
  | nil => simp
  | cons first rest ih =>
    -- the first item goes behind those of the rest that are less, and before its equals
    obtain ⟨others, ordered⟩ := List.pairwise_cons.1 ordered
    obtain ⟨left, right, sorted, split, above⟩ := List.mergeSort_cons (ne_gt_trans compare)
      (ne_gt_total compare) first rest
    have sides := List.pairwise_append.1 (split ▸ ih ordered)
    have rising := List.pairwise_mergeSort (ne_gt_trans compare) (ne_gt_total compare)
      (first :: rest)
    rw [sorted] at rising ⊢
    obtain ⟨after, -⟩ := List.pairwise_cons.1 (List.pairwise_append.1 rising).2.1
    apply List.pairwise_append.2
    refine ⟨sides.1, List.pairwise_cons.2 ⟨?_, sides.2.1⟩, ?_⟩
    · intro a inside
      have member : a ∈ rest := List.mem_mergeSort.1 (split ▸ List.mem_append_right left inside)
      have most := Ordering.isLE_iff_eq_lt_or_eq_eq.1 (ne_gt_iff.1 (after a inside))
      exact most.imp_right fun equal => ⟨equal, others a member⟩
    · intro a inside
      have greater : compare first a = .gt := by simpa using above a inside
      have lower : compare a first = .lt := Std.OrientedCmp.lt_of_gt greater
      exact List.forall_mem_cons.2 ⟨Or.inl lower, sides.2.2 a inside⟩

end

end SearchRelay
