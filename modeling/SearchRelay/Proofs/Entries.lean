import SearchRelay.Entries

/-!
Sorted entries. Setting a value keeps the order, and entries that are in order already are taken
as they are.
-/

namespace SearchRelay.Entries

variable {α : Type}

private theorem lt_of_not_lt {a b : String} (notLess : ¬ a < b) (different : a ≠ b) : b < a := by
  apply Classical.byContradiction
  intro notGreater
  exact different (String.le_antisymm (String.not_lt.1 notGreater) (String.not_lt.1 notLess))

theorem mem_of_mem_insert {key : String} {value : α} {entries : List (String × α)}
    {entry : String × α} (member : entry ∈ insert key value entries) :
    entry = (key, value) ∨ entry ∈ entries := by
  fun_induction insert key value entries with
  | case1 => exact Or.inl (List.mem_singleton.1 member)
  | case2 =>
    rcases List.mem_cons.1 member with same | old
    · exact Or.inl same
    · exact Or.inr (List.mem_cons_of_mem _ old)
  | case3 => exact List.mem_cons.1 member
  | case4 k v rest _ _ ih =>
    rcases List.mem_cons.1 member with same | later
    · exact Or.inr (same ▸ List.mem_cons_self)
    · rcases ih later with same | old
      · exact Or.inl same
      · exact Or.inr (List.mem_cons_of_mem _ old)

theorem sorted_cons {entry : String × α} {rest : List (String × α)} :
    Sorted (entry :: rest) ↔ (∀ other ∈ rest, entry.1 < other.1) ∧ Sorted rest := by
  simp [Sorted]

theorem sorted_insert (key : String) (value : α) {entries : List (String × α)}
    (sorted : Sorted entries) : Sorted (insert key value entries) := by
  fun_induction insert key value entries with
  | case1 => simp [Sorted]
  | case2 => exact sorted
  | case3 k v rest _ before =>
    obtain ⟨first, _⟩ := sorted_cons.1 sorted
    refine sorted_cons.2 ⟨?_, sorted⟩
    intro other member
    rcases List.mem_cons.1 member with rfl | later
    · exact before
    · exact String.lt_trans before (first other later)
  | case4 k v rest different notBefore ih =>
    obtain ⟨first, ordered⟩ := sorted_cons.1 sorted
    refine sorted_cons.2 ⟨?_, ih ordered⟩
    intro other member
    rcases mem_of_mem_insert member with rfl | old
    · exact lt_of_not_lt notBefore different
    · exact first other old

theorem insert_last {key : String} {value : α} {entries : List (String × α)}
    (behind : ∀ entry ∈ entries, entry.1 < key) :
    insert key value entries = entries ++ [(key, value)] := by
  fun_induction insert key value entries with
  | case1 => rfl
  | case2 => exact absurd (behind _ List.mem_cons_self) (String.lt_irrefl _)
  | case3 k v rest _ before =>
    exact absurd (String.lt_trans before (behind _ List.mem_cons_self)) (String.lt_irrefl _)
  | case4 k v rest _ _ ih =>
    rw [ih fun entry member => behind entry (List.mem_cons_of_mem _ member), List.cons_append]

theorem find?_cons (key other : String) (value : α) (rest : List (String × α)) :
    find? ((key, value) :: rest) other = if key = other then some value else find? rest other := by
  by_cases same : key = other
  · simp [find?, same]
  · simp [find?, same]

theorem find?_insert (key other : String) (value : α) (entries : List (String × α)) :
    find? (insert key value entries) other =
      if key = other then some value else find? entries other := by
  fun_induction insert key value entries with
  | case1 => exact find?_cons key other value []
  | case2 =>
    rw [find?_cons, find?_cons]
    split
    · rfl
    · rfl
  | case3 => exact find?_cons key other value _
  | case4 k v rest different _ ih =>
    rw [find?_cons, ih, find?_cons]
    by_cases same : k = other
    · rw [if_pos same, if_pos same, if_neg fun equal => different (equal.trans same.symm)]
    · rw [if_neg same, if_neg same]

/-- In entries that are in order a key has one value. -/
theorem mem_iff_find? {entries : List (String × α)} (sorted : Sorted entries) {key : String}
    {value : α} : (key, value) ∈ entries ↔ find? entries key = some value := by
  induction entries with
  | nil => simp [find?]
  | cons entry rest ih =>
    obtain ⟨k, v⟩ := entry
    obtain ⟨first, ordered⟩ := sorted_cons.1 sorted
    rw [List.mem_cons, find?_cons, ih ordered]
    by_cases same : k = key
    · subst same
      rw [if_pos rfl, Option.some_inj, Prod.mk.injEq, eq_comm (a := v)]
      constructor
      · rintro (⟨-, here⟩ | later)
        · exact here
        · exact absurd (first _ ((ih ordered).2 later)) (String.lt_irrefl _)
      · exact fun here => Or.inl ⟨rfl, here⟩
    · rw [if_neg same]
      constructor
      · rintro (here | later)
        · exact absurd (congrArg Prod.fst here).symm same
        · exact later
      · exact Or.inr

theorem ofList_of_sorted {entries : List (String × α)} (sorted : Sorted entries) :
    ofList entries = entries := by
  have grown (rest done : List (String × α)) (whole : Sorted (done ++ rest)) :
      rest.foldl (fun before entry => insert entry.1 entry.2 before) done = done ++ rest := by
    induction rest generalizing done with
    | nil => simp
    | cons entry rest ih =>
      have behind : ∀ other ∈ done, other.1 < entry.1 := by
        intro other member
        simp only [Sorted, List.map_append, List.pairwise_append] at whole
        exact whole.2.2 other.1 (List.mem_map_of_mem member) entry.1 (by simp)
      rw [List.foldl_cons, insert_last behind, ih _ (by simpa using whole)]
      simp
  exact grown entries [] sorted

theorem mem_of_mem_ofList {entries : List (String × α)} {entry : String × α}
    (member : entry ∈ ofList entries) : entry ∈ entries := by
  have grown (rest done : List (String × α))
      (inside : entry ∈ rest.foldl (fun before entry => insert entry.1 entry.2 before) done) :
      entry ∈ rest ∨ entry ∈ done := by
    induction rest generalizing done with
    | nil => exact Or.inr inside
    | cons first rest ih =>
      rcases ih _ inside with later | before
      · exact Or.inl (List.mem_cons_of_mem _ later)
      · rcases mem_of_mem_insert before with rfl | old
        · exact Or.inl List.mem_cons_self
        · exact Or.inr old
  exact (grown entries [] member).resolve_right List.not_mem_nil

theorem sorted_ofList (entries : List (String × α)) : Sorted (ofList entries) := by
  have grown (rest done : List (String × α)) (before : Sorted done) :
      Sorted (rest.foldl (fun before entry => insert entry.1 entry.2 before) done) := by
    induction rest generalizing done with
    | nil => exact before
    | cons entry rest ih => exact ih _ (sorted_insert entry.1 entry.2 before)
  exact grown entries [] (by simp [Sorted])

end SearchRelay.Entries
