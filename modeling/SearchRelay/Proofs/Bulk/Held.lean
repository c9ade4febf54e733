import SearchRelay.Proofs.Bulk.Delivery

/-!
What the index holds under an id. Operations on other ids do not change it, and the last operation
on the id decides what it is.
-/

namespace SearchRelay

namespace MemoryCluster

def held (index id : String) (documents : List StoredDocument) : List StoredDocument :=
  documents.filter (isAt index id)

theorem isAt_iff {index id : String} {document : StoredDocument} :
    isAt index id document ↔ document.index = index ∧ document.id = id := by
  simp only [isAt, Bool.and_eq_true, beq_iff_eq, and_comm]

/-- Documents that are neither the new one nor in its place stay as they are. -/
theorem filter_put {document : StoredDocument} {keep : StoredDocument → Bool}
    (foreign : ∀ other, keep other → ¬ isAt document.index document.id other)
    (documents : List StoredDocument) :
    (put document documents).filter keep = documents.filter keep := by
  have dropped {other : StoredDocument} (here : isAt document.index document.id other) :
      ¬ keep other := fun kept => foreign other kept here
  have self := dropped (isAt_iff.2 ⟨rfl, rfl⟩)
  fun_induction put document documents with
  | case1 => exact List.filter_cons_of_neg self
  | case2 first rest here =>
    rw [List.filter_cons_of_neg self, List.filter_cons_of_neg (dropped here)]
  | case3 first rest _ ih => rw [List.filter_cons, List.filter_cons, ih]

theorem put_new {document : StoredDocument} {documents : List StoredDocument}
    (new : ∀ other ∈ documents, ¬ isAt document.index document.id other) :
    put document documents = documents ++ [document] := by
  fun_induction put document documents with
  | case1 => rfl
  | case2 first rest here => exact absurd here (new first List.mem_cons_self)
  | case3 first rest _ ih =>
    rw [ih fun other inside => new other (List.mem_cons_of_mem _ inside), List.cons_append]

theorem held_put {document : StoredDocument} {documents : List StoredDocument}
    (single : (held document.index document.id documents).length ≤ 1) :
    held document.index document.id (put document documents) = [document] := by
  have self : isAt document.index document.id document := isAt_iff.2 ⟨rfl, rfl⟩
  fun_induction put document documents with
  | case1 => exact List.filter_cons_of_pos self
  | case2 first rest here =>
    rw [held, List.filter_cons_of_pos here, List.length_cons] at single
    have nothing : rest.filter (isAt document.index document.id) = [] :=
      List.length_eq_zero_iff.1 (by omega)
    rw [held, List.filter_cons_of_pos self, nothing]
  | case3 first rest other ih =>
    rw [held, List.filter_cons_of_neg other] at single
    rw [held, List.filter_cons_of_neg other]
    exact ih single

end MemoryCluster

namespace Operation

open MemoryCluster (held isAt)

variable {index id : String} {operation : Operation} {operations : List Operation}
  {documents : List StoredDocument}

def Targets (index id : String) (operation : Operation) : Prop :=
  operation.index = index ∧ operation.reference.searchId = id

/-- What the operation leaves behind where it is performed. -/
def leaves (operation : Operation) : List StoredDocument :=
  (operation.document.map fun source =>
    ⟨operation.index, operation.reference.searchId, operation.reference.routing, source⟩).toList

theorem leaves_length (operation : Operation) : operation.leaves.length ≤ 1 := by
  rw [leaves]
  cases operation.document with
  | none => exact Nat.zero_le _
  | some source => exact Nat.le_refl _

theorem filter_apply {keep : StoredDocument → Bool}
    (foreign : ∀ document, keep document →
      ¬ isAt operation.index operation.reference.searchId document) :
    (operation.apply [] documents).filter keep = documents.filter keep := by
  rw [apply, if_neg (by simp [isRefused])]
  dsimp only
  split
  next source => exact MemoryCluster.filter_put foreign documents
  next =>
    rw [List.filter_filter]
    apply List.filter_congr
    intro document _
    by_cases kept : keep document
    · simp [kept, foreign document kept]
    · simp [kept]

theorem filter_applyAll {keep : StoredDocument → Bool}
    (foreign : ∀ operation ∈ operations, ∀ document, keep document →
      ¬ isAt operation.index operation.reference.searchId document) :
    (applyAll [] operations documents).filter keep = documents.filter keep := by
  induction operations generalizing documents with
  | nil => rfl
  | cons operation operations ih =>
    obtain ⟨first, others⟩ := List.forall_mem_cons.1 foreign
    exact (ih others).trans (filter_apply first)

theorem held_apply (single : (held index id documents).length ≤ 1)
    (targets : operation.Targets index id) :
    held index id (operation.apply [] documents) = operation.leaves := by
  obtain ⟨rfl, rfl⟩ := targets
  rw [apply, if_neg (by simp [isRefused]), leaves]
  dsimp only
  split
  next source upsert =>
    rw [upsert]
    let document : StoredDocument :=
      ⟨operation.index, operation.reference.searchId, operation.reference.routing, source⟩
    have after : held document.index document.id (MemoryCluster.put document documents) =
        [document] := MemoryCluster.held_put single
    exact after
  next removal =>
    rw [removal, held, List.filter_filter]
    simp

theorem held_apply_other (other : ¬ operation.Targets index id) :
    held index id (operation.apply [] documents) = held index id documents := by
  apply filter_apply
  intro document here there
  obtain ⟨rfl, rfl⟩ := MemoryCluster.isAt_iff.1 here
  obtain ⟨sameIndex, sameId⟩ := MemoryCluster.isAt_iff.1 there
  exact other ⟨sameIndex.symm, sameId.symm⟩

theorem held_applyAll_other (others : ∀ operation ∈ operations, ¬ operation.Targets index id) :
    held index id (applyAll [] operations documents) = held index id documents := by
  induction operations generalizing documents with
  | nil => rfl
  | cons operation operations ih =>
    obtain ⟨first, rest⟩ := List.forall_mem_cons.1 others
    exact (ih rest).trans (held_apply_other first)

/-- When all operations on an id leave the same behind, and there is one of them or it was there
before, then it is there afterwards. -/
theorem held_applyAll {result : List StoredDocument}
    (single : (held index id documents).length ≤ 1)
    (agree : ∀ operation ∈ operations, operation.Targets index id → operation.leaves = result)
    (reached : held index id documents = result ∨
      ∃ operation ∈ operations, operation.Targets index id) :
    held index id (applyAll [] operations documents) = result := by
  induction operations generalizing documents with
  | nil => simpa [applyAll] using reached
  | cons operation operations ih =>
    obtain ⟨first, others⟩ := List.forall_mem_cons.1 agree
    by_cases targets : operation.Targets index id
    · have now := held_apply single targets
      exact ih (now ▸ operation.leaves_length) others (Or.inl (now.trans (first targets)))
    · have same : held index id (operation.apply [] documents) = held index id documents :=
        held_apply_other targets
      refine ih (same ▸ single) others ?_
      rw [same]
      refine reached.imp_right ?_
      rintro ⟨found, member, here⟩
      rcases List.mem_cons.1 member with rfl | later
      · exact absurd here targets
      · exact ⟨found, later, here⟩

theorem mem_leaves {document : StoredDocument} (inside : document ∈ operation.leaves) :
    document.index = operation.index ∧ document.id = operation.reference.searchId := by
  obtain ⟨source, -, rfl⟩ := Option.map_eq_some_iff.1 (Option.mem_toList.1 inside)
  exact ⟨rfl, rfl⟩

theorem apply_new (new : ∀ document ∈ documents,
    ¬ isAt operation.index operation.reference.searchId document) :
    operation.apply [] documents = documents ++ operation.leaves := by
  rw [apply, if_neg (by simp [isRefused]), leaves]
  dsimp only
  split
  next source upsert =>
    rw [upsert]
    exact MemoryCluster.put_new new
  next removal =>
    rw [removal]
    simp only [Option.map_none, Option.toList_none, List.append_nil, List.filter_eq_self]
    exact fun document inside => by simp [new document inside]

/-- Operations on ids of their own leave their documents in the order in which they come. -/
theorem applyAll_new
    (apart : operations.Pairwise fun first second =>
      first.reference.searchId ≠ second.reference.searchId)
    (new : ∀ operation ∈ operations, ∀ document ∈ documents,
      ¬ isAt operation.index operation.reference.searchId document) :
    applyAll [] operations documents = documents ++ operations.flatMap leaves := by
  induction operations generalizing documents with
  | nil => simp [applyAll]
  | cons operation operations ih =>
    obtain ⟨first, others⟩ := List.forall_mem_cons.1 new
    obtain ⟨unlike, apart⟩ := List.pairwise_cons.1 apart
    have applied : applyAll [] (operation :: operations) documents =
        applyAll [] operations (documents ++ operation.leaves) := by
      rw [← apply_new first]
      rfl
    rw [applied, ih apart, List.append_assoc, List.flatMap_cons]
    intro other member document inside here
    rcases List.mem_append.1 inside with old | left
    · exact others other member document old here
    · have id := (MemoryCluster.isAt_iff.1 here).2
      exact unlike other member ((mem_leaves left).2.symm.trans id)

theorem single_applyAll (single : (held index id documents).length ≤ 1) :
    (held index id (applyAll [] operations documents)).length ≤ 1 := by
  induction operations generalizing documents with
  | nil => exact single
  | cons operation operations ih =>
    apply ih
    by_cases targets : operation.Targets index id
    · exact held_apply single targets ▸ operation.leaves_length
    · rw [held_apply_other targets]
      exact single

end Operation

end SearchRelay
