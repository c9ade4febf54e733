import SearchRelay.Backend.Memory
import SearchRelay.Proofs.Bulk.Answers
import SearchRelay.Proofs.Text.Lines

/-!
What a bulk request does to the cluster in memory. The request is a text, but the lines of an
operation read back as that operation, so the documents change as if each operation was applied
by itself, and the failed references are those of the refused operations.
-/

namespace SearchRelay

theorem Text.byteLength_eq_utf8Len (text : List Char) : byteLength text = String.utf8Len text := by
  have counted (text : List Char) (start : Nat) :
      text.foldl (fun bytes c => bytes + c.utf8Size) start = start + String.utf8Len text := by
    induction text generalizing start with
    | nil => simp [String.utf8Len]
    | cons c text ih =>
      rw [List.foldl_cons, ih, String.utf8Len_cons]
      omega
  rw [byteLength, counted, Nat.zero_add]

namespace Operation

def totalLength (operations : List Operation) : Nat := (operations.map byteLength).sum

theorem utf8ByteSize_body (operations : List Operation) :
    (body operations).utf8ByteSize = totalLength operations := by
  rw [body, String.utf8ByteSize_ofList, totalLength]
  induction operations with
  | nil => rfl
  | cons operation operations ih =>
    rw [List.flatMap_cons, String.utf8Len_append, ih, List.map_cons, List.sum_cons, byteLength,
      Text.byteLength_eq_utf8Len]

def isRefused (rejected : List String) (operation : Operation) : Bool :=
  rejected.contains operation.reference.searchId

/-- The documents after an operation. An upsert puts its document, a removal takes the one with
the id away, and a refused operation changes nothing. -/
def apply (rejected : List String) (operation : Operation) (documents : List StoredDocument) :
    List StoredDocument :=
  if operation.isRefused rejected then documents
  else
    let id := operation.reference.searchId
    match operation.document with
    | some source =>
      MemoryCluster.put ⟨operation.index, id, operation.reference.routing, source⟩ documents
    | none => documents.filter fun document => !MemoryCluster.isAt operation.index id document

def applyAll (rejected : List String) (operations : List Operation)
    (documents : List StoredDocument) : List StoredDocument :=
  operations.foldl (fun documents operation => operation.apply rejected documents) documents

theorem applyAll_append (rejected : List String) (before after : List Operation)
    (documents : List StoredDocument) :
    applyAll rejected (before ++ after) documents =
      applyAll rejected after (applyAll rejected before documents) := List.foldl_append

/-- The document of the operation, if it has one, survives its text form. -/
def Portable (operation : Operation) : Prop :=
  ∀ document, operation.document = some document → document.Portable

/-! ### The text of an operation -/

def metadata (operation : Operation) : List (String × Json) :=
  [("_index", .str operation.index), ("_id", .str operation.reference.searchId)] ++
    (operation.reference.routing.map fun routing => ("routing", Json.str routing)).toList

/-- The lines of the operation without their ends. -/
def plainLines (operation : Operation) : List (List Char) :=
  operation.action.print :: (operation.document.map Json.print).toList

theorem action_whole (operation : Operation) : operation.action.Whole := by
  refine ⟨Json.wholeEntries_iff.2 ?_, trivial⟩
  cases operation.reference.routing <;> simp [Json.Whole]

theorem action_shallow (operation : Operation) : operation.action.nesting ≤ Json.maxDepth := by
  have flat : Json.nestingEntries operation.metadata ≤ 0 := by
    apply Json.nestingEntries_le_iff.2
    unfold metadata
    cases operation.reference.routing <;> simp [Json.nesting]
  change max (Json.nestingEntries operation.metadata + 1) 0 + 1 ≤ 127
  omega

theorem readAction_action (operation : Operation) :
    MemoryCluster.readAction operation.action.print =
      .ok (operation.verb, .object (Json.normalEntries operation.metadata)) := by
  rw [MemoryCluster.readAction,
    Json.read?_print_normal operation.action_whole operation.action_shallow]
  rfl

theorem members_metadata (operation : Operation) :
    let metadata := Json.object (Json.normalEntries operation.metadata)
    MemoryCluster.member? metadata "_index" = some operation.index ∧
      MemoryCluster.member? metadata "_id" = some operation.reference.searchId ∧
      MemoryCluster.member? metadata "routing" = operation.reference.routing := by
  unfold metadata
  cases operation.reference.routing <;>
    simp [Json.normalEntries, Json.normal, MemoryCluster.member?, Json.object, Json.get?,
      Entries.ofList, Entries.find?_insert]
  all_goals rfl

theorem lines_eq (operation : Operation) :
    operation.lines = operation.plainLines.flatMap fun line => line ++ ['\n'] := by
  cases same : operation.document <;> simp [lines, plainLines, same]

theorem visible_plainLines {operation : Operation} (portable : operation.Portable)
    {line : List Char} (member : line ∈ operation.plainLines) :
    Text.Visible line ∧ Text.isBlank line = false := by
  have printed {value : Json} (whole : value.Whole) :
      Text.Visible value.print ∧ Text.isBlank value.print = false :=
    ⟨Json.visible_print value whole, Json.isBlank_print whole⟩
  rcases List.mem_cons.1 member with rfl | source
  · exact printed operation.action_whole
  · obtain ⟨document, known, rfl⟩ := Option.map_eq_some_iff.1 (Option.mem_toList.1 source)
    exact printed (portable document known).whole

theorem bodyLines_body {operations : List Operation}
    (portable : ∀ operation ∈ operations, operation.Portable) :
    MemoryCluster.bodyLines (body operations) = operations.flatMap plainLines := by
  have joined (lines : List (List Char))
      (plain : ∀ line ∈ lines, Text.Visible line ∧ Text.isBlank line = false) :
      (Text.lines (lines.flatMap fun line => line ++ ['\n'])).filter (!Text.isBlank ·) = lines := by
    induction lines with
    | nil => rfl
    | cons line lines ih =>
      obtain ⟨first, others⟩ := List.forall_mem_cons.1 plain
      rw [List.flatMap_cons, List.append_assoc, List.singleton_append, Text.lines_line first.1,
        List.filter_cons_of_pos (by simp [first.2]), ih others]
  have text : (body operations).toList =
      (operations.flatMap plainLines).flatMap fun line => line ++ ['\n'] := by
    simp only [body, String.toList_ofList, List.flatMap_assoc, ← lines_eq]
  rw [MemoryCluster.bodyLines, text]
  apply joined
  intro line member
  obtain ⟨operation, inside, source⟩ := List.mem_flatMap.1 member
  exact visible_plainLines (portable operation inside) source

end Operation

/-! ### The answer -/

/-- An item is the verdict on this operation. -/
def Operation.Answers (rejected : List String) (operation : Operation)
    (item : List (String × ItemResult)) : Prop :=
  ∃ verdict, item = [(operation.verb, verdict)] ∧ verdict.id = operation.reference.searchId ∧
    verdict.failed = operation.isRefused rejected

namespace MemoryCluster

variable (cluster : MemoryCluster)

/-- A bulk request gets through. -/
structure Open (cluster : MemoryCluster) : Prop where
  here : cluster.unavailable = false
  calm : cluster.armed = none

theorem bulk_shut {cluster : MemoryCluster} (shut : ¬ cluster.Open) (body : String) :
    ∃ report after, cluster.bulk body = (.error report, after) ∧
      after.documents = cluster.documents := by
  rw [bulk]
  dsimp only
  split
  next => exact ⟨_, _, rfl, rfl⟩
  next here =>
    split
    next => exact ⟨_, _, rfl, rfl⟩
    next calm => exact absurd ⟨Bool.eq_false_iff.2 here, calm⟩ shut

def perform (operations : List Operation) (cluster : MemoryCluster) : MemoryCluster :=
  { cluster with
    documents := Operation.applyAll cluster.rejected operations cluster.documents }

theorem applyIndex_operation {operation : Operation} {source : Json}
    (upsert : operation.document = some source) :
    let done := cluster.applyIndex
      ⟨operation.index, operation.reference.searchId, operation.reference.routing, source⟩
    operation.Answers cluster.rejected [(operation.verb, done.1)] ∧
      done.2 = cluster.perform [operation] := by
  by_cases refused : operation.isRefused cluster.rejected
  · refine ⟨⟨_, rfl, ?_⟩, ?_⟩ <;>
      simp_all [applyIndex, rejection, ItemResult.failed, Operation.isRefused, perform,
        Operation.applyAll, Operation.apply]
  · refine ⟨⟨_, rfl, ?_⟩, ?_⟩ <;>
      simp_all [applyIndex, insert, ItemResult.failed, Operation.isRefused, perform,
        Operation.applyAll, Operation.apply]

theorem applyDelete_operation {operation : Operation} (removal : operation.document = none) :
    let done := cluster.applyDelete operation.index operation.reference.searchId
    operation.Answers cluster.rejected [(operation.verb, done.1)] ∧
      done.2 = cluster.perform [operation] := by
  by_cases refused : operation.isRefused cluster.rejected
  · refine ⟨⟨_, rfl, ?_⟩, ?_⟩ <;>
      simp_all [applyDelete, rejection, ItemResult.failed, Operation.isRefused, perform,
        Operation.applyAll, Operation.apply]
  · refine ⟨⟨_, rfl, ?_⟩, ?_⟩ <;>
      simp_all [applyDelete, erase, ItemResult.failed, Operation.isRefused, perform,
        Operation.applyAll, Operation.apply]

theorem applyLines_operation {operation : Operation} (portable : operation.Portable)
    (items : List (List (String × ItemResult))) (rest : List (List Char)) :
    ∃ item, operation.Answers cluster.rejected item ∧
      applyLines cluster items (operation.plainLines ++ rest) =
        applyLines (cluster.perform [operation]) (item :: items) rest := by
  obtain ⟨index, id, routing⟩ := operation.members_metadata
  rw [Operation.plainLines, List.cons_append, applyLines, operation.readAction_action]
  simp only [index, id, routing, Option.getD_some]
  cases kind : operation.document with
  | some source =>
    have verb : operation.verb = "index" := by simp [Operation.verb, kind]
    obtain ⟨answers, after⟩ := cluster.applyIndex_operation kind
    rw [← verb]
    simp only [if_pos, Option.map_some, Option.toList_some, List.singleton_append,
      Json.read?_print (portable source kind)]
    exact ⟨_, answers, by rw [after]⟩
  | none =>
    have verb : operation.verb = "delete" := by simp [Operation.verb, kind]
    obtain ⟨answers, after⟩ := cluster.applyDelete_operation kind
    rw [if_neg (by simp [verb]), if_pos verb]
    exact ⟨_, answers, by rw [← after]; rfl⟩

/-- The lines of operations are read as those operations, each with its verdict. -/
theorem applyLines_operations {operations : List Operation}
    (portable : ∀ operation ∈ operations, operation.Portable)
    (done : List (List (String × ItemResult))) :
    ∃ items, List.Forall₂ (Operation.Answers cluster.rejected) operations items ∧
      applyLines cluster done (operations.flatMap Operation.plainLines) =
        (.ok (done.reverse ++ items), cluster.perform operations) := by
  induction operations generalizing cluster done with
  | nil => exact ⟨[], .nil, by simp [applyLines, perform, Operation.applyAll]⟩
  | cons operation operations ih =>
    obtain ⟨first, others⟩ := List.forall_mem_cons.1 portable
    obtain ⟨item, answers, step⟩ := cluster.applyLines_operation first done
      (operations.flatMap Operation.plainLines)
    obtain ⟨items, later, run⟩ := ih (cluster.perform [operation]) others (item :: done)
    refine ⟨item :: items, .cons answers later, ?_⟩
    rw [List.flatMap_cons, step, run, List.reverse_cons, List.append_assoc, List.singleton_append]
    rfl

end MemoryCluster

/-- When every item is the verdict on its operation, the failed references are those of the
refused operations. -/
theorem BulkResponse.failedReferences_of_answers {rejected : List String}
    {operations : List Operation} {response : BulkResponse}
    (answers : List.Forall₂ (Operation.Answers rejected) operations response.items) :
    response.failedReferences operations =
      (operations.filter (Operation.isRefused rejected)).map Operation.reference := by
  have answered : List.Forall₂ Operation.AnsweredBy operations response.items :=
    answers.imp fun _ _ ⟨verdict, single, same, _⟩ => ⟨_, verdict, single, same⟩
  rw [failedReferences_of_answered answered]
  clear answered
  generalize response.items = items at answers
  induction answers with
  | nil => rfl
  | cons first _ ih =>
    obtain ⟨verdict, rfl, -, failed⟩ := first
    rw [failing_cons, reportsFailure_single, failed, List.filter_cons]
    split
    next => rw [List.map_cons, List.map_cons, ih]
    next => exact ih

namespace MemoryCluster

variable {cluster : MemoryCluster} {operations : List Operation}

/-- A request that gets through is carried out line by line. -/
theorem bulk_open (ready : cluster.Open) (body : String) :
    cluster.bulk body =
      let run := applyLines { cluster with received := body :: cluster.received } [] (bodyLines body)
      (run.1.map respond, run.2) := by
  rw [bulk]
  split
  next away => exact absurd (ready.here.symm.trans away) (by decide)
  next =>
    split
    next armed => exact absurd (ready.calm.symm.trans armed) (by simp)
    next => rfl

/-- A request that gets through applies its operations one at a time, and its answer has the
verdict on each of them. -/
theorem bulk_answers (ready : cluster.Open)
    (portable : ∀ operation ∈ operations, operation.Portable) :
    ∃ items, List.Forall₂ (Operation.Answers cluster.rejected) operations items ∧
      cluster.bulk (Operation.body operations) = (.ok (respond items),
        { cluster.perform operations with
          received := Operation.body operations :: cluster.received }) := by
  obtain ⟨items, answers, run⟩ := applyLines_operations
    { cluster with received := Operation.body operations :: cluster.received } portable []
  refine ⟨items, answers, ?_⟩
  rw [bulk_open ready, Operation.bodyLines_body portable, run]
  rfl

theorem bulk_body (ready : cluster.Open)
    (portable : ∀ operation ∈ operations, operation.Portable) :
    ∃ response, cluster.bulk (Operation.body operations) = (.ok response,
        { cluster.perform operations with
          received := Operation.body operations :: cluster.received }) ∧
      response.failedReferences operations =
        (operations.filter (Operation.isRefused cluster.rejected)).map Operation.reference := by
  obtain ⟨items, answers, taken⟩ := bulk_answers ready portable
  exact ⟨respond items, taken, BulkResponse.failedReferences_of_answers answers⟩

end MemoryCluster

end SearchRelay
