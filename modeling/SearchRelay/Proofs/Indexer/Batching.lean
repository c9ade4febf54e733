import SearchRelay.Proofs.Indexer.Requests

/-!
Batching does not show. However an indexer cuts its operations into requests, after a flush the
documents and the failures are those of an indexer that performs every operation at once.
-/

namespace SearchRelay

/-- The record's document survives its text form, and its project is a number of 64 bits. -/
structure Record.Portable (record : Record) : Prop where
  document : ∀ body, record.content = .document body → body.Portable
  project : ∀ project, record.projectId = some project → project < 2 ^ 64

theorem stamp_portable {document : Json} {reference : Reference} {record : Record}
    (portable : document.Portable) (number : reference.databaseId < 2 ^ 64)
    (project : ∀ project, record.projectId = some project → project < 2 ^ 64) :
    (stamp document reference record).Portable := by
  have add {document value : Json} (key : String) (old : document.Portable)
      (scalar : value.Portable) (flat : value.nesting = 0) :
      (if (document.get? key).isSome then document else document.set key value).Portable := by
    split
    · exact old
    · exact old.set key scalar flat
  have named := add "id" (add "type" portable (.str reference.kind.documentType) rfl)
    (.ofNat number) rfl
  unfold stamp
  split
  next known => exact add "project_id" named (.ofNat (project _ known)) rfl
  next => exact named

namespace Indexer

/-- A call to an indexer. The store of records answers as it stands at that moment. -/
inductive Call where
  | process (source : RecordSource) (reference : Reference)
  | submit (operation : Operation)
  | flush

/-- Everything that the call puts into the index survives its text form. -/
def Call.Portable : Call → Prop
  | .process source reference => reference.databaseId < 2 ^ 64 ∧
      ∀ record, source reference.kind reference.databaseId = .ok (some record) → record.Portable
  | .submit operation => operation.Portable
  | .flush => True

def call (backend : Backend σ) (now : Indexer × σ) : Call → Indexer × σ
  | .process source reference => (now.1.process backend source reference now.2).2
  | .submit operation => now.1.submit backend operation now.2
  | .flush => (now.1.flush backend now.2).2

def run (backend : Backend σ) (calls : List Call) (now : Indexer × σ) : Indexer × σ :=
  calls.foldl (call backend) now

/-- An indexer without a buffer: the documents and the failed references as they are after the
last call, with no request in between. -/
structure Direct where
  limits : Option Limits
  documents : List StoredDocument
  failed : List Reference

namespace Direct

/-- Performs an operation. A refused one changes no document and fails its reference. -/
def perform (rejected : List String) (direct : Direct) (operation : Operation) : Direct :=
  { direct with
    documents := operation.apply rejected direct.documents
    failed := if operation.isRefused rejected then operation.reference :: direct.failed
      else direct.failed }

def call (index : String) (rejected : List String) (direct : Direct) : Call → Direct
  | .process source reference =>
    match (Indexer.new index 1 direct.limits).decide source reference with
    | .error _ => direct
    | .ok (.fail, limits) =>
      { direct with limits := limits, failed := reference :: direct.failed }
    | .ok (.perform operation, limits) =>
      perform rejected { direct with limits := limits } operation
  | .submit operation => direct.perform rejected operation
  | .flush => direct

def run (index : String) (rejected : List String) (calls : List Call) (direct : Direct) : Direct :=
  calls.foldl (call index rejected) direct

end Direct

/-- An indexer with its buffer is where a direct one is, once the waiting operations are done. -/
structure Tracks (index : String) (rejected : List String) (now : Indexer × MemoryCluster)
    (direct : Direct) : Prop where
  index : now.1.index = index
  limits : now.1.limits = direct.limits
  ready : now.2.Open
  refusing : now.2.rejected = rejected
  portable : ∀ operation ∈ now.1.pending.toList, operation.Portable
  documents : Operation.applyAll rejected now.1.pending.toList now.2.documents = direct.documents
  failures : ∀ reference, reference ∈ direct.failed ↔ reference ∈ now.1.failures ∨
    ∃ operation ∈ now.1.pending.toList,
      operation.isRefused rejected ∧ operation.reference = reference

variable {index : String} {rejected : List String}

/-! ### Sending -/

def refused (rejected : List String) (operations : List Operation) : List Reference :=
  ((operations.filter (Operation.isRefused rejected)).map Operation.reference).eraseDups

theorem mem_refused {operations : List Operation} {reference : Reference} :
    reference ∈ refused rejected operations ↔
      ∃ operation ∈ operations, operation.isRefused rejected ∧ operation.reference = reference := by
  simp only [refused, List.mem_eraseDups, List.mem_map, List.mem_filter, and_assoc]

/-- Sending performs the waiting operations, and fails the references of the refused ones. -/
theorem send_open {indexer : Indexer} {cluster : MemoryCluster} (ready : cluster.Open)
    (portable : ∀ operation ∈ indexer.pending.toList, operation.Portable) :
    ∃ bytes received,
      let failed := refused cluster.rejected indexer.pending.toList
      indexer.send MemoryCluster.backend cluster = (failed,
        { indexer with
          pending := #[], pendingBytes := bytes, failures := indexer.failures ++ failed,
          phase := .idle },
        { cluster.perform indexer.pending.toList with received := received }) := by
  by_cases nothing : indexer.pending.isEmpty
  · have empty : indexer.pending = #[] := Array.isEmpty_iff.1 nothing
    refine ⟨indexer.pendingBytes, cluster.received, ?_⟩
    rw [send, if_pos nothing, empty]
    simp only [refused, List.filter_nil, List.map_nil, List.eraseDups_nil, ← empty]
    rfl
  · obtain ⟨response, answer, failed⟩ := MemoryCluster.bulk_body ready portable
    refine ⟨0, Operation.body indexer.pending.toList :: cluster.received, ?_⟩
    rw [send, if_neg nothing]
    simp only [MemoryCluster.backend, answer, failedIn, failed]
    rfl

theorem Tracks.sendEarly {now : Indexer × MemoryCluster} {direct : Direct}
    (tracks : Tracks index rejected now direct) :
    Tracks index rejected (now.1.sendEarly MemoryCluster.backend now.2) direct := by
  obtain ⟨bytes, received, sent⟩ := send_open tracks.ready tracks.portable
  have refusing := tracks.refusing
  rw [Indexer.sendEarly, sent]
  refine ⟨tracks.index, tracks.limits, ⟨tracks.ready.here, tracks.ready.calm⟩, refusing, ?_, ?_, ?_⟩
  · intro operation waiting
    exact absurd waiting List.not_mem_nil
  · rw [← tracks.documents, ← refusing]
    rfl
  · intro reference
    simp only [tracks.failures reference, ← Array.mem_toList_iff, Array.toList_appendList,
      List.mem_append, mem_refused, refusing, List.not_mem_nil, false_and, exists_false, or_false]

/-! ### The calls -/

/-- An operation that waits is done as far as the direct indexer is concerned. -/
theorem Tracks.push {now : Indexer × MemoryCluster} {direct : Direct}
    (tracks : Tracks index rejected now direct) {operation : Operation}
    (portable : operation.Portable) :
    Tracks index rejected (now.1.push operation, now.2) (direct.perform rejected operation) := by
  refine ⟨tracks.index, tracks.limits, tracks.ready, tracks.refusing, ?_, ?_, ?_⟩
  · intro waiting inside
    rw [Indexer.push, Array.toList_push] at inside
    rcases List.mem_append.1 inside with old | new
    · exact tracks.portable waiting old
    · exact List.mem_singleton.1 new ▸ portable
  · rw [Indexer.push, Array.toList_push, Operation.applyAll_append, tracks.documents]
    rfl
  · intro reference
    have before := tracks.failures reference
    have after (operations : List Operation) : (∃ waiting ∈ operations ++ [operation],
          waiting.isRefused rejected ∧ waiting.reference = reference) ↔
        (∃ waiting ∈ operations, waiting.isRefused rejected ∧ waiting.reference = reference) ∨
          operation.isRefused rejected ∧ operation.reference = reference := by
      simp only [List.mem_append, List.mem_singleton, or_and_right, exists_or, exists_eq_left]
    rw [Indexer.push, Array.toList_push, after, ← or_assoc, ← before]
    by_cases refused : operation.isRefused rejected
    · simp only [Direct.perform, refused, if_pos, List.mem_cons, true_and]
      exact ⟨fun found => (found.imp_left Eq.symm).symm, fun found => (found.imp_right Eq.symm).symm⟩
    · simp only [Direct.perform, refused, Bool.false_eq_true, if_false, false_and, or_false]

theorem Tracks.submit {now : Indexer × MemoryCluster} {direct : Direct}
    (tracks : Tracks index rejected now direct) {operation : Operation}
    (portable : operation.Portable) :
    Tracks index rejected (now.1.submit MemoryCluster.backend operation now.2)
      (direct.perform rejected operation) := by
  -- a request that goes out before or after the operation joins the waiting ones changes nothing
  -- that the direct indexer sees
  have early (held : Indexer × MemoryCluster) (same : Tracks index rejected held direct) :=
    same.sendEarly
  have late (held : Indexer × MemoryCluster)
      (same : Tracks index rejected held (direct.perform rejected operation)) := same.sendEarly
  exact submit_keeps early (fun _ same => same.push portable) late tracks

theorem Tracks.flush {now : Indexer × MemoryCluster} {direct : Direct}
    (tracks : Tracks index rejected now direct) :
    Tracks index rejected (now.1.flush MemoryCluster.backend now.2).2 direct := by
  obtain ⟨index, limits, ready, refusing, portable, documents, failures⟩ := tracks.sendEarly
  exact ⟨index, limits, ready, refusing, portable, documents, failures⟩

theorem decide_eq (indexer : Indexer) :
    indexer.decide = (Indexer.new indexer.index 1 indexer.limits).decide := rfl

theorem decide_portable {indexer : Indexer} {source : RecordSource} {reference : Reference}
    (portable : (Call.process source reference).Portable) {operation : Operation}
    {limits : Option Limits}
    (decided : indexer.decide source reference = .ok (.perform operation, limits)) :
    operation.Portable := by
  obtain ⟨number, records⟩ := portable
  have removal : Operation.Portable ⟨indexer.index, reference, none⟩ :=
    fun document impossible => by cases impossible
  have found {record : Record}
      (known : source reference.kind reference.databaseId = .ok (some record))
      (same : decideRecord indexer.index reference record = .perform operation) :
      operation.Portable := by
    obtain ⟨document, project⟩ := records record known
    unfold decideRecord at same
    split at same
    next body content =>
      cases same
      intro stamped same
      cases same
      exact stamp_portable (document body content) number project
    next => cases same; exact removal
    next => cases same
  unfold decide at decided
  split at decided
  next => cases decided
  split at decided
  next => cases decided
  next => cases decided; exact removal
  next record known =>
    split at decided
    next =>
      simp only [Except.ok.injEq, Prod.mk.injEq] at decided
      exact found known decided.1
    next =>
      dsimp only at decided
      split at decided
      next =>
        simp only [Except.ok.injEq, Prod.mk.injEq] at decided
        exact found known decided.1
      next => cases decided; exact removal

theorem Tracks.process {now : Indexer × MemoryCluster} {direct : Direct}
    (tracks : Tracks index rejected now direct) {source : RecordSource} {reference : Reference}
    (portable : (Call.process source reference).Portable) :
    Tracks index rejected (now.1.process MemoryCluster.backend source reference now.2).2
      (direct.call index rejected (.process source reference)) := by
  have decided : now.1.decide source reference =
      (Indexer.new index 1 direct.limits).decide source reference := by
    rw [decide_eq, tracks.index, tracks.limits]
  have relimited (limits : Option Limits) : Tracks index rejected
      ({ now.1 with limits := limits }, now.2) { direct with limits := limits } :=
    ⟨tracks.index, rfl, tracks.ready, tracks.refusing, tracks.portable, tracks.documents,
      tracks.failures⟩
  simp only [Indexer.process, Direct.call, ← decided]
  cases decision : now.1.decide source reference with
  | error report => exact tracks
  | ok answer =>
    obtain ⟨action, limits⟩ := answer
    cases action with
    | perform operation => exact (relimited limits).submit (decide_portable portable decision)
    | fail =>
      refine ⟨tracks.index, rfl, tracks.ready, tracks.refusing, tracks.portable,
        tracks.documents, ?_⟩
      intro other
      have before := tracks.failures other
      simp only [recordFailure, List.mem_cons, Array.mem_push, before]
      exact ⟨fun found => by tauto, fun found => by tauto⟩

theorem Tracks.call {now : Indexer × MemoryCluster} {direct : Direct}
    (tracks : Tracks index rejected now direct) {call : Call} (portable : call.Portable) :
    Tracks index rejected (Indexer.call MemoryCluster.backend now call)
      (direct.call index rejected call) := by
  cases call with
  | process source reference => exact tracks.process portable
  | submit operation => exact tracks.submit portable
  | flush => exact tracks.flush

theorem Tracks.run {calls : List Call} {now : Indexer × MemoryCluster} {direct : Direct}
    (tracks : Tracks index rejected now direct) (portable : ∀ call ∈ calls, call.Portable) :
    Tracks index rejected (run MemoryCluster.backend calls now)
      (direct.run index rejected calls) := by
  induction calls generalizing now direct with
  | nil => exact tracks
  | cons call calls ih =>
    obtain ⟨first, others⟩ := List.forall_mem_cons.1 portable
    exact ih (tracks.call first) others

theorem Tracks.new (index : String) (limit : Nat) (limits : Option Limits)
    {cluster : MemoryCluster} (ready : cluster.Open) :
    Tracks index cluster.rejected (new index limit limits, cluster)
      ⟨limits, cluster.documents, []⟩ := by
  refine ⟨rfl, rfl, ready, rfl, ?_, rfl, ?_⟩
  · intro operation waiting
    exact absurd waiting List.not_mem_nil
  · intro reference
    simp [Indexer.new]

theorem flush_pending {indexer : Indexer} {cluster : MemoryCluster} (ready : cluster.Open)
    (portable : ∀ operation ∈ indexer.pending.toList, operation.Portable) :
    (indexer.flush MemoryCluster.backend cluster).2.1.pending = #[] := by
  obtain ⟨bytes, received, sent⟩ := send_open ready portable
  rw [flush, sent]

theorem run_append (backend : Backend σ) (before after : List Call) (now : Indexer × σ) :
    run backend (before ++ after) now = run backend after (run backend before now) :=
  List.foldl_append

theorem run_flush (backend : Backend σ) (calls : List Call) (now : Indexer × σ) :
    run backend (calls ++ [.flush]) now =
      ((run backend calls now).1.flush backend (run backend calls now).2).2 :=
  run_append backend calls [.flush] now

/-- After a flush the documents and the failures are those of the direct indexer. -/
theorem run_flush_direct (index : String) (limit : Nat) (limits : Option Limits)
    {cluster : MemoryCluster} (ready : cluster.Open) {calls : List Call}
    (portable : ∀ call ∈ calls, call.Portable) :
    let done := run MemoryCluster.backend (calls ++ [.flush]) (new index limit limits, cluster)
    let direct := Direct.run index cluster.rejected calls ⟨limits, cluster.documents, []⟩
    done.2.documents = direct.documents ∧
      ∀ reference, reference ∈ done.1.failures ↔ reference ∈ direct.failed := by
  have before := (Tracks.new index limit limits ready).run portable
  have after := before.flush
  have nothing := flush_pending before.ready before.portable
  rw [← run_flush] at nothing after
  obtain ⟨_, _, _, _, _, documents, failures⟩ := after
  rw [nothing] at documents failures
  refine ⟨documents, ?_⟩
  intro reference
  simpa using (failures reference).symm

/-- How large a request may be is not seen in the end. The documents and the failures are those of
the direct indexer under one limit as under another. -/
theorem batching_transparent (index : String) (limit other : Nat) (limits : Option Limits)
    (cluster : MemoryCluster) (ready : cluster.Open) {calls : List Call}
    (portable : ∀ call ∈ calls, call.Portable) :
    let done limit := run MemoryCluster.backend (calls ++ [.flush]) (new index limit limits, cluster)
    let direct := Direct.run index cluster.rejected calls ⟨limits, cluster.documents, []⟩
    (done limit).2.documents = direct.documents ∧
      (∀ reference, reference ∈ (done limit).1.failures ↔ reference ∈ direct.failed) ∧
      (done limit).2.documents = (done other).2.documents ∧
      ∀ reference, reference ∈ (done limit).1.failures ↔ reference ∈ (done other).1.failures := by
  intro done direct
  obtain ⟨documents, failures⟩ := run_flush_direct index limit limits ready portable
  obtain ⟨otherDocuments, otherFailures⟩ := run_flush_direct index other limits ready portable
  exact ⟨documents, failures, documents.trans otherDocuments.symm,
    fun reference => (failures reference).trans (otherFailures reference).symm⟩

private def twoIssues : List Call :=
  [.process (fun _ _ => .ok (some ⟨"Issue", 1, none, .document (.obj [])⟩))
      ⟨.issue, 1, "issue_1", none⟩,
    .submit ⟨"main", ⟨.issue, 2, "issue_2", none⟩, some (.obj [])⟩]

private theorem twoIssues_portable : ∀ call ∈ twoIssues, call.Portable := by
  have bare : (Json.obj []).Portable := .obj (by simp [Entries.Sorted]) (by simp) (by simp)
  refine List.forall_mem_cons.2 ⟨⟨by decide, ?_⟩, List.forall_mem_singleton.2 ?_⟩
  · rintro record ⟨⟩
    exact ⟨fun body same => by cases same; exact bare, fun project same => by cases same⟩
  · exact fun document same => by cases same; exact bare

private def refusing : MemoryCluster := { MemoryCluster.empty with rejected := ["issue_2"] }

/-- A document that is put and one whose id is refused, under a limit that lets every operation go
alone and under one that lets them go together. -/
theorem batching_transparent_refusal :
    let done limit :=
      run MemoryCluster.backend (twoIssues ++ [.flush]) (new "main" limit none, refusing)
    (done 0).2.documents =
        [⟨"main", "issue_1", none, .obj [("id", .ofNat 1), ("type", .str "issue")]⟩] ∧
      (∀ reference, reference ∈ (done 0).1.failures ↔
        reference ∈ [⟨.issue, 2, "issue_2", none⟩]) ∧
      (done 0).2.documents = (done 1000).2.documents := by
  have direct : Direct.run "main" refusing.rejected twoIssues ⟨none, refusing.documents, []⟩ =
      ⟨none, [⟨"main", "issue_1", none, .obj [("id", .ofNat 1), ("type", .str "issue")]⟩],
        [⟨.issue, 2, "issue_2", none⟩]⟩ := by
    unfold twoIssues refusing
    cbv
  have all := batching_transparent "main" 0 1000 none refusing ⟨rfl, rfl⟩ twoIssues_portable
  dsimp only at all ⊢
  rw [direct] at all
  exact ⟨all.1, all.2.1, all.2.2.1⟩

end Indexer

end SearchRelay
