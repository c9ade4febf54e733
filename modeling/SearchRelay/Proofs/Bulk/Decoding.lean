import SearchRelay.Proofs.Bulk.Held

/-!
A bulk body is read as the operations that were written into it, whatever their names and documents
hold: each has its item in the answer, and its effect on the document with its index and id.
-/

namespace SearchRelay

open MemoryCluster (isAt)

theorem MemoryCluster.find?_put (index id : String) (document : StoredDocument)
    (documents : List StoredDocument) :
    (put document documents).find? (isAt index id) =
      if isAt index id document then some document else documents.find? (isAt index id) := by
  fun_induction put document documents with
  | case1 => exact List.find?_singleton
  | case2 first rest here =>
    by_cases meant : isAt index id document
    · rw [List.find?_cons_of_pos meant, if_pos meant]
    · have foreign : ¬ isAt index id first := by
        obtain ⟨sameIndex, sameId⟩ := isAt_iff.1 here
        rwa [isAt_iff, sameIndex, sameId, ← isAt_iff]
      rw [List.find?_cons_of_neg meant, if_neg meant, List.find?_cons_of_neg foreign]
  | case3 first rest other ih =>
    by_cases found : isAt index id first
    · have unmeant : ¬ isAt index id document := by
        intro meant
        obtain ⟨rfl, rfl⟩ := isAt_iff.1 meant
        exact other found
      rw [List.find?_cons_of_pos found, if_neg unmeant, List.find?_cons_of_pos found]
    · rw [List.find?_cons_of_neg found, List.find?_cons_of_neg found, ih]

theorem MemoryCluster.find?_without (index id gone other : String) (documents : List StoredDocument) :
    (documents.filter fun document => !isAt gone other document).find? (isAt index id) =
      if gone = index ∧ other = id then none else documents.find? (isAt index id) := by
  rw [List.find?_filter]
  split
  next meant =>
    rw [meant.1, meant.2]
    exact List.find?_eq_none.2 fun document _ => by simp
  next foreign =>
    congr 1
    funext document
    by_cases here : isAt index id document
    · have kept : isAt gone other document = false := by
        rw [Bool.eq_false_iff, ne_eq, isAt_iff]
        rintro ⟨sameIndex, sameId⟩
        obtain ⟨rfl, rfl⟩ := isAt_iff.1 here
        exact foreign ⟨sameIndex.symm, sameId.symm⟩
      simp [here, kept]
    · simp [here]

namespace Operation

/-- The document with this index and id after the operation, if it was `found` before. -/
def effect (rejected : List String) (index id : String) (found : Option StoredDocument)
    (operation : Operation) : Option StoredDocument :=
  if operation.isRefused rejected then found
  else if operation.index = index ∧ operation.reference.searchId = id then
    operation.document.map fun source => ⟨index, id, operation.reference.routing, source⟩
  else found

variable {rejected : List String} {index id : String}

theorem find?_apply (operation : Operation) (documents : List StoredDocument) :
    (operation.apply rejected documents).find? (isAt index id) =
      operation.effect rejected index id (documents.find? (isAt index id)) := by
  unfold apply effect
  by_cases refused : operation.isRefused rejected
  · rw [if_pos refused, if_pos refused]
  rw [if_neg refused, if_neg refused]
  cases operation.document with
  | some source =>
    simp only [MemoryCluster.find?_put, MemoryCluster.isAt_iff]
    split
    next meant => rw [Option.map_some, meant.1, meant.2]
    next => rfl
  | none => exact MemoryCluster.find?_without index id _ _ documents

theorem find?_applyAll (operations : List Operation) (documents : List StoredDocument) :
    (applyAll rejected operations documents).find? (isAt index id) =
      operations.foldl (effect rejected index id) (documents.find? (isAt index id)) := by
  induction operations generalizing documents with
  | nil => rfl
  | cons operation operations ih =>
    rw [List.foldl_cons, ← find?_apply]
    exact ih (operation.apply rejected documents)

/-- The operation is performed on the document with this index and id. -/
def Acts (rejected : List String) (index id : String) (operation : Operation) : Prop :=
  operation.Targets index id ∧ ¬ operation.isRefused rejected

theorem effect_acts {operation : Operation} (acts : operation.Acts rejected index id)
    (found : Option StoredDocument) : operation.effect rejected index id found =
      operation.document.map fun source => ⟨index, id, operation.reference.routing, source⟩ := by
  rw [effect, if_neg acts.2]
  exact if_pos acts.1

theorem effect_idle {operation : Operation} (idle : ¬ operation.Acts rejected index id)
    (found : Option StoredDocument) : operation.effect rejected index id found = found := by
  by_cases refused : operation.isRefused rejected
  · rw [effect, if_pos refused]
  · rw [effect, if_neg refused]
    exact if_neg fun targets => idle ⟨targets, refused⟩

/-- When all operations on a document leave the same behind, and there is one of them or it was
there before, then it is there afterwards. -/
theorem foldl_effect {operations : List Operation} {found result : Option StoredDocument}
    (agree : ∀ operation ∈ operations, operation.Acts rejected index id →
      ∀ found, operation.effect rejected index id found = result)
    (reached : found = result ∨ ∃ operation ∈ operations, operation.Acts rejected index id) :
    operations.foldl (effect rejected index id) found = result := by
  induction operations generalizing found with
  | nil => simpa using reached
  | cons operation operations ih =>
    obtain ⟨first, others⟩ := List.forall_mem_cons.1 agree
    rw [List.foldl_cons]
    by_cases acts : operation.Acts rejected index id
    · exact ih others (Or.inl (first acts found))
    · rw [effect_idle acts]
      refine ih others (reached.imp_right ?_)
      rintro ⟨other, member, here⟩
      rcases List.mem_cons.1 member with rfl | later
      · exact absurd here acts
      · exact ⟨other, later, here⟩

theorem any_refused {operations : List Operation} {items : List (List (String × ItemResult))}
    (answers : List.Forall₂ (Answers rejected) operations items) :
    (MemoryCluster.respond items).errors = operations.any (isRefused rejected) := by
  induction answers with
  | nil => rfl
  | cons first _ ih =>
    obtain ⟨verdict, rfl, -, failed⟩ := first
    simp only [MemoryCluster.respond, List.any_cons, List.any_nil, Bool.or_false, failed] at ih ⊢
    rw [ih]

end Operation

/-- The body of operations is taken apart into just these operations, one after the other. -/
theorem MemoryCluster.bulk_decodes {cluster : MemoryCluster} (ready : cluster.Open)
    {operations : List Operation} (portable : ∀ operation ∈ operations, operation.Portable) :
    let body := Operation.body operations
    ∃ response after, cluster.bulk body = (.ok response, after) ∧
      List.Forall₂ (Operation.Answers cluster.rejected) operations response.items ∧
      response.errors = operations.any (Operation.isRefused cluster.rejected) ∧
      after = { cluster with
        documents := Operation.applyAll cluster.rejected operations cluster.documents
        received := body :: cluster.received } ∧
      (∀ index id, after.find? index id =
        operations.foldl (Operation.effect cluster.rejected index id) (cluster.find? index id)) ∧
      (operations.map Operation.byteLength).sum = body.utf8ByteSize := by
  intro body
  obtain ⟨items, answers, taken⟩ := bulk_answers ready portable
  refine ⟨respond items, _, taken, answers, Operation.any_refused answers, rfl, ?_,
    (Operation.utf8ByteSize_body operations).symm⟩
  intro index id
  exact Operation.find?_applyAll operations cluster.documents

private def oddNames : List Operation :=
  [⟨"ma\"in\n", ⟨.issue, 1, "issue\t\\1", some "«7»"⟩, some (.obj [("title", .str "a\r\n\"b\"")])⟩,
    ⟨"ma\"in\n", ⟨.issue, 2, "issue_2", none⟩, some .null⟩,
    ⟨"ma\"in\n", ⟨.issue, 3, "issue_3", none⟩, none⟩]

private theorem oddNames_portable : ∀ operation ∈ oddNames, operation.Portable := by
  have titled : (Json.obj [("title", .str "a\r\n\"b\"")]).Portable :=
    .obj (by simp [Entries.Sorted]) (by simpa using Json.Portable.str _)
      (by simp [Json.nesting, Json.maxDepth])
  have null : Json.null.Portable := ⟨trivial, trivial, Nat.zero_le _⟩
  have none : ∀ operation ∈ ([] : List Operation), operation.Portable := List.forall_mem_nil _
  simp only [oddNames, List.forall_mem_cons]
  refine ⟨?_, ?_, ?_, none⟩
  · intro document same
    cases same
    exact titled
  · intro document same
    cases same
    exact null
  · intro document same
    cases same

/-- Quotes, line ends and a tab in the names and the title, and a refused id. -/
theorem MemoryCluster.bulk_decodes_oddNames :
    let cluster := { MemoryCluster.empty with rejected := ["issue_2"] }
    ∃ response after, cluster.bulk (Operation.body oddNames) = (.ok response, after) ∧
      response.items.length = 3 ∧ response.errors = true ∧
      after.find? "ma\"in\n" "issue\t\\1" = some
        ⟨"ma\"in\n", "issue\t\\1", some "«7»", .obj [("title", .str "a\r\n\"b\"")]⟩ ∧
      after.find? "ma\"in\n" "issue_2" = none := by
  intro cluster
  have ready : cluster.Open := ⟨rfl, rfl⟩
  obtain ⟨response, after, taken, answers, errors, -, found, -⟩ :=
    MemoryCluster.bulk_decodes ready oddNames_portable
  refine ⟨response, after, taken, answers.length_eq.symm, errors.trans rfl, ?_, ?_⟩
  · rw [found]
    rfl
  · rw [found]
    rfl

end SearchRelay
