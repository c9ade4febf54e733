import SearchRelay.Proofs.Indexer.Batching

/-!
Backends that own up: they perform the operations of a request in their order, and when they leave
one out, some reference of the request fails. The cluster in memory is of this kind, even while it
refuses ids, fails on cue or is gone; an open one performs all but the refused operations.
-/

namespace SearchRelay

open Indexer (FailsIn refused mem_refused)

structure Backend.Candid (backend : Backend σ) (documents : σ → List StoredDocument) : Prop where
  bulk : ∀ operations state, (∀ operation ∈ operations, operation.Portable) →
    let answered := backend.bulk (Operation.body operations) state
    ∃ performed, performed.Sublist operations ∧
      documents answered.2 = Operation.applyAll [] performed (documents state) ∧
      (performed = operations ∨ ∃ reference, FailsIn operations answered.1 reference)

/-- Requests that are sent one after the other are performed one after the other. -/
theorem Backend.Candid.replay {backend : Backend σ} {documents : σ → List StoredDocument}
    (candid : backend.Candid documents) {batches : List (List Operation)}
    (portable : ∀ operation ∈ batches.flatten, operation.Portable) (state : σ) :
    let asked := backend.replay (batches.map Operation.body) state
    ∃ performed, performed.Sublist batches.flatten ∧
      documents asked.2 = Operation.applyAll [] performed (documents state) ∧
      (performed = batches.flatten ∨
        ∃ reference, ∃ request ∈ batches.zip asked.1, FailsIn request.1 request.2 reference) := by
  induction batches generalizing state with
  | nil => exact ⟨[], .slnil, rfl, Or.inl rfl⟩
  | cons batch batches ih =>
    rw [List.flatten_cons, List.forall_mem_append] at portable
    obtain ⟨early, inside, first, all⟩ := candid.bulk batch state portable.1
    obtain ⟨late, insideLater, rest, allLater⟩ := ih portable.2
      (backend.bulk (Operation.body batch) state).2
    simp only [List.map_cons, Backend.replay, List.flatten_cons, List.zip_cons_cons]
    refine ⟨early ++ late, inside.append insideLater, ?_, ?_⟩
    · rw [rest, first, Operation.applyAll_append]
    · rcases all with rfl | ⟨reference, fails⟩
      · rcases allLater with rfl | ⟨reference, request, member, fails⟩
        · exact Or.inl rfl
        · exact Or.inr ⟨reference, request, List.mem_cons_of_mem _ member, fails⟩
      · exact Or.inr ⟨reference, _, List.mem_cons_self, fails⟩

namespace Operation

theorem applyAll_accepted (rejected : List String) (operations : List Operation)
    (documents : List StoredDocument) :
    applyAll rejected operations documents =
      applyAll [] (operations.filter fun operation => !operation.isRefused rejected) documents := by
  induction operations generalizing documents with
  | nil => rfl
  | cons operation operations ih =>
    by_cases refused : operation.isRefused rejected
    · rw [List.filter_cons_of_neg (by simp [refused]), ← ih]
      simp only [applyAll, List.foldl_cons, apply, refused, if_pos]
    · rw [List.filter_cons_of_pos (by simp [refused])]
      have same : operation.apply rejected documents = operation.apply [] documents := by
        rw [apply, apply, if_neg refused, if_neg (by simp [isRefused])]
      simp only [applyAll, List.foldl_cons, same] at ih ⊢
      exact ih _

end Operation

namespace MemoryCluster

variable {cluster : MemoryCluster}

theorem candid : backend.Candid documents := by
  refine ⟨fun operations cluster portable => ?_⟩
  by_cases ready : cluster.Open
  · obtain ⟨response, taken, failed⟩ := bulk_body ready portable
    simp only [backend, taken, FailsIn, failed]
    refine ⟨_, List.filter_sublist, Operation.applyAll_accepted _ _ _, ?_⟩
    by_cases refused : ∃ operation ∈ operations, operation.isRefused cluster.rejected
    · obtain ⟨operation, inside, refused⟩ := refused
      exact Or.inr ⟨_, List.mem_map_of_mem (List.mem_filter.2 ⟨inside, refused⟩)⟩
    · left
      apply List.filter_eq_self.2
      intro operation inside
      simpa using fun known => refused ⟨operation, inside, known⟩
  · obtain ⟨report, after, away, same⟩ := bulk_shut ready (Operation.body operations)
    simp only [backend, away]
    refine ⟨[], List.nil_sublist _, same, ?_⟩
    cases operations with
    | nil => exact Or.inl rfl
    | cons operation operations => exact Or.inr ⟨_, operation, List.mem_cons_self, rfl⟩

/-- An open cluster takes every request, and what fails is what it refuses. -/
theorem replay_open (ready : cluster.Open) {batches : List (List Operation)}
    (portable : ∀ operation ∈ batches.flatten, operation.Portable) :
    let asked := backend.replay (batches.map Operation.body) cluster
    (∃ received, asked.2 = { cluster.perform batches.flatten with received := received }) ∧
      ∀ reference, (∃ request ∈ batches.zip asked.1, FailsIn request.1 request.2 reference) ↔
        reference ∈ refused cluster.rejected batches.flatten := by
  induction batches generalizing cluster with
  | nil => exact ⟨⟨cluster.received, rfl⟩, fun reference => by simp [refused]⟩
  | cons batch batches ih =>
    rw [List.flatten_cons, List.forall_mem_append] at portable
    obtain ⟨response, taken, failed⟩ := bulk_body ready portable.1
    have answered : backend.bulk (Operation.body batch) cluster = _ := taken
    have still : Open { cluster.perform batch with
        received := Operation.body batch :: cluster.received } := ⟨ready.here, ready.calm⟩
    obtain ⟨⟨received, after⟩, failures⟩ := ih still portable.2
    simp only [List.map_cons, Backend.replay, List.flatten_cons, List.zip_cons_cons, answered]
    refine ⟨⟨received, ?_⟩, ?_⟩
    · rw [after]
      simp only [perform, Operation.applyAll_append]
    · intro reference
      have here : FailsIn batch (.ok response) reference ↔
          reference ∈ refused cluster.rejected batch := by
        simp only [FailsIn, failed, mem_refused, List.mem_map, List.mem_filter, and_assoc]
      rw [List.exists_mem_cons_iff, failures, here]
      simp only [perform, mem_refused, List.mem_append, or_and_right, exists_or]

end MemoryCluster

end SearchRelay
