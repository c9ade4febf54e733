import SearchRelay.Proofs.Bulk.Decoding
import SearchRelay.Proofs.Indexer.Plan

/-!
A queue that delivers its references at least once may deliver them again, and in another order. As
long as no two references share a document, each of them always leads to the same operation on its
own document, so the documents do not tell how often and in which order the references came.
-/

namespace SearchRelay

open MemoryCluster (isAt)

namespace Indexer

variable {index : String} {rejected : List String} {source : RecordSource}
  {queue again : List Reference}

/-! ### The documents of a queue -/

theorem mem_planned {may : Record → Bool} {operation : Operation}
    (planned : operation ∈ queue.filterMap (plan index may source)) :
    operation.reference ∈ queue ∧ plan index may source operation.reference = some operation := by
  obtain ⟨reference, member, plans⟩ := List.mem_filterMap.1 planned
  obtain ⟨-, rfl⟩ := plan_reference plans
  exact ⟨member, plans⟩

theorem find?_planned (may : Record → Bool)
    (apart : ∀ first ∈ queue, ∀ second ∈ queue,
      first.searchId = second.searchId → first = second)
    (same : ∀ reference, reference ∈ again ↔ reference ∈ queue)
    (documents : List StoredDocument) (name id : String) :
    (Operation.applyAll rejected (again.filterMap (plan index may source)) documents).find?
        (isAt name id) =
      (Operation.applyAll rejected (queue.filterMap (plan index may source)) documents).find?
        (isAt name id) := by
  rw [Operation.find?_applyAll, Operation.find?_applyAll]
  have members (operation : Operation) :
      operation ∈ again.filterMap (plan index may source) ↔
        operation ∈ queue.filterMap (plan index may source) := by
    simp only [List.mem_filterMap, same]
  -- a document is changed by the operations of one reference only, or by none
  by_cases touched : ∃ operation ∈ queue.filterMap (plan index may source),
      operation.Acts rejected name id
  · obtain ⟨operation, planned, acts⟩ := touched
    obtain ⟨queued, plans⟩ := mem_planned planned
    have agree (other : Operation) (member : other ∈ queue.filterMap (plan index may source))
        (here : other.Acts rejected name id) (found : Option StoredDocument) :
        other.effect rejected name id found =
          operation.document.map fun source =>
            ⟨name, id, operation.reference.routing, source⟩ := by
      obtain ⟨enqueued, alike⟩ := mem_planned member
      have one : other.reference = operation.reference :=
        apart _ enqueued _ queued (here.1.2.trans acts.1.2.symm)
      obtain rfl : other = operation := by
        rw [one, plans] at alike
        exact (Option.some.inj alike).symm
      exact Operation.effect_acts here found
    rw [Operation.foldl_effect agree (Or.inr ⟨operation, planned, acts⟩),
      Operation.foldl_effect (fun other member => agree other ((members other).1 member))
        (Or.inr ⟨operation, (members operation).2 planned, acts⟩)]
  · have idle (other : Operation) (member : other ∈ queue.filterMap (plan index may source))
        (here : other.Acts rejected name id) : ∀ found,
        other.effect rejected name id found = documents.find? (isAt name id) :=
      absurd ⟨other, member, here⟩ touched
    rw [Operation.foldl_effect idle (Or.inl rfl),
      Operation.foldl_effect (fun other member => idle other ((members other).1 member))
        (Or.inl rfl)]

/-! ### Deliveries -/

def delivery (source : RecordSource) (queue : List Reference) : List Call :=
  queue.map (.process source) ++ [.flush]

/-- A delivery performs what is planned for its references, whatever the limit and however often
there were deliveries before. -/
theorem Tracks.delivery {now : Indexer × MemoryCluster} {direct : Direct}
    (tracks : Tracks index rejected now direct)
    (portable : ∀ reference ∈ queue, (Call.process source reference).Portable) :
    let done := Indexer.run MemoryCluster.backend (Indexer.delivery source queue) now
    ∃ after, Tracks index rejected done after ∧ done.2.documents = after.documents ∧
      after.documents = Operation.applyAll rejected
        (queue.filterMap (plan index (admits direct.limits) source)) direct.documents ∧
      admits after.limits = admits direct.limits := by
  intro done
  have processed := tracks.run (List.forall_mem_map.2 portable)
  have flushed := processed.flush
  have nothing := flush_pending processed.ready processed.portable
  rw [← run_flush] at flushed nothing
  refine ⟨_, flushed, ?_, Direct.run_process index rejected source queue direct⟩
  have documents := flushed.documents
  rw [nothing] at documents
  exact documents

/-- It does not matter how often, in which order and in how many runs the references of a queue are
delivered, nor how the bulk requests are cut: every document is the same in the end. -/
theorem redelivery_safe (index : String) (limits : Option Limits) (source : RecordSource)
    (cluster : MemoryCluster) (ready : cluster.Open) {queue : List Reference}
    (apart : ∀ first ∈ queue, ∀ second ∈ queue,
      first.searchId = second.searchId → first = second)
    (portable : ∀ reference ∈ queue, (Call.process source reference).Portable) :
    let done limit calls := run MemoryCluster.backend calls (new index limit limits, cluster)
    ∀ (limit other : Nat) (again : List Reference),
      (∀ reference, reference ∈ again ↔ reference ∈ queue) →
      let once := done limit (delivery source queue)
      let reordered := done other (delivery source again)
      let twice := done other (delivery source queue ++ delivery source again)
      let resumed := run MemoryCluster.backend (delivery source again)
        (new index other limits, once.2)
      ∀ name id, reordered.2.find? name id = once.2.find? name id ∧
        twice.2.find? name id = once.2.find? name id ∧
        resumed.2.find? name id = once.2.find? name id := by
  intro done limit other again same once reordered twice resumed name id
  have carried : ∀ reference ∈ again, (Call.process source reference).Portable :=
    fun reference member => portable reference ((same reference).1 member)
  have both : ∀ reference, reference ∈ queue ++ again ↔ reference ∈ queue := by
    intro reference
    rw [List.mem_append, same, or_self]
  have fresh (limit : Nat) := Tracks.new index limit limits ready
  obtain ⟨first, tracks, stored, onceDone, -⟩ := (fresh limit).delivery portable
  obtain ⟨_, -, restored, reorderedDone, -⟩ := (fresh other).delivery carried
  obtain ⟨half, halfway, -, halfDone, kept⟩ := (fresh other).delivery portable
  obtain ⟨_, -, doubled, twiceDone, -⟩ := halfway.delivery carried
  obtain ⟨_, -, continued, resumedDone, -⟩ :=
    (Tracks.new index other limits tracks.ready).delivery carried
  rw [kept, halfDone, ← Operation.applyAll_append, ← List.filterMap_append] at twiceDone
  rw [tracks.refusing, stored, onceDone, ← Operation.applyAll_append,
    ← List.filterMap_append] at resumedDone
  have alike {left : MemoryCluster} {arrived : List Reference}
      (members : ∀ reference, reference ∈ arrived ↔ reference ∈ queue)
      (documents : left.documents = Operation.applyAll cluster.rejected
        (arrived.filterMap (plan index (admits limits) source)) cluster.documents) :
      left.find? name id = once.2.find? name id := by
    rw [MemoryCluster.find?, MemoryCluster.find?, documents, stored, onceDone]
    exact find?_planned (admits limits) apart members cluster.documents name id
  refine ⟨alike same (restored.trans reorderedDone), alike both ?_,
    alike both (continued.trans resumedDone)⟩
  rw [← twiceDone, ← doubled, ← run_append]

private def oneLeft : RecordSource := fun _ id =>
  .ok (if id = 1 then some ⟨"Issue", 1, none, .document (.obj [])⟩ else none)

private def bothIssues : List Reference :=
  [⟨.issue, 1, "issue_1", none⟩, ⟨.issue, 2, "issue_2", none⟩]

private theorem bothIssues_portable :
    ∀ reference ∈ bothIssues, (Call.process oneLeft reference).Portable := by
  have bare : (Json.obj []).Portable := .obj (by simp [Entries.Sorted]) (by simp) (by simp)
  refine List.forall_mem_cons.2 ⟨⟨by decide, ?_⟩, List.forall_mem_singleton.2 ⟨by decide, ?_⟩⟩
  · rintro record ⟨⟩
    exact ⟨fun body same => by cases same; exact bare, fun project same => by cases same⟩
  · rintro record ⟨⟩

private def haunted : MemoryCluster :=
  { MemoryCluster.empty with documents := [⟨"main", "issue_2", none, .obj []⟩] }

/-- An issue that is put and one that is gone. They come once, and then out of order and more than
once, with every operation in a request of its own. -/
theorem redelivery_safe_ghost :
    let once := run MemoryCluster.backend (delivery oneLeft bothIssues)
      (new "main" 1000 none, haunted)
    let reordered := run MemoryCluster.backend
      (delivery oneLeft (bothIssues.reverse ++ bothIssues)) (new "main" 0 none, haunted)
    once.2.find? "main" "issue_1" =
        some ⟨"main", "issue_1", none, .obj [("id", .ofNat 1), ("type", .str "issue")]⟩ ∧
      once.2.find? "main" "issue_2" = none ∧
      ∀ name id, reordered.2.find? name id = once.2.find? name id := by
  intro once reordered
  have ready : haunted.Open := ⟨rfl, rfl⟩
  have safe := redelivery_safe "main" none oneLeft haunted ready (by decide) bothIssues_portable
    1000 0 (bothIssues.reverse ++ bothIssues) (by simp)
  obtain ⟨_, -, stored, documents, -⟩ :=
    (Tracks.new "main" 1000 none ready).delivery bothIssues_portable
  refine ⟨?_, ?_, fun name id => (safe name id).1⟩
  · rw [MemoryCluster.find?, stored, documents]
    rfl
  · rw [MemoryCluster.find?, stored, documents]
    rfl

end Indexer

end SearchRelay
