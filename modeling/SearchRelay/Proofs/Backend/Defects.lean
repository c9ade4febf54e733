import SearchRelay.Proofs.Backend.Ledger
import SearchRelay.Proofs.Bulk.Decoding

/-!
Bulk bodies that break off. A request is carried out while its body is read, so one that fails at a
line has done what the lines before it ask for. It leaves the documents as they were just where that
comes to nothing.
-/

namespace SearchRelay

namespace Edit

/-- The index and the id of the document. -/
def key : Edit → String × String
  | .put document => document.key
  | .erase index id => (index, id)

/-- What stands in the place of the document afterwards. -/
def leaves : Edit → Option StoredDocument
  | .put document => some document
  | .erase _ _ => none

/-- The edits that are not refused. -/
def performed (rejected : List String) (edits : List Edit) : List Edit :=
  edits.filter fun edit => !rejected.contains edit.key.2

/-- The last edit of a document. -/
def last? (index id : String) (edits : List Edit) : Option Edit :=
  edits.reverse.find? fun edit => edit.key == (index, id)

theorem performed_cons (rejected : List String) (edit : Edit) (edits : List Edit) :
    performed rejected (edit :: edits) =
      accepted rejected edit.key.2 edit ++ performed rejected edits := by
  unfold performed accepted
  by_cases refused : rejected.contains edit.key.2
  · rw [if_pos refused, List.filter_cons_of_neg (by simpa using refused), List.nil_append]
  · rw [if_neg refused, List.filter_cons_of_pos (by simpa using refused), List.singleton_append]

theorem find?_documents (edit : Edit) (index id : String) (before : List StoredDocument) :
    (edit.documents before).find? (MemoryCluster.isAt index id) =
      if edit.key = (index, id) then edit.leaves
      else before.find? (MemoryCluster.isAt index id) := by
  cases edit with
  | put document =>
    simp only [documents, key, leaves, StoredDocument.key, MemoryCluster.find?_put,
      MemoryCluster.isAt_iff, Prod.mk.injEq]
  | erase gone other =>
    simp only [documents, key, leaves, MemoryCluster.find?_without, Prod.mk.injEq]

end Edit

/-- What stands under an index and an id is what the last edit there leaves. -/
theorem MemoryCluster.find?_edited (cluster : MemoryCluster) (edits : List Edit)
    (index id : String) : (cluster.edited edits).find? index id =
      ((Edit.last? index id edits).map Edit.leaves).getD (cluster.find? index id) := by
  induction edits using List.reverseRecOn with
  | nil => rfl
  | append_singleton edits edit ih =>
    rw [edited_append]
    refine (edit.find?_documents index id _).trans ?_
    rw [Edit.last?, List.reverse_concat, List.find?_cons]
    split
    next here =>
      rw [beq_iff_eq.2 here]
      rfl
    next foreign =>
      rw [beq_eq_false_iff_ne.2 foreign]
      exact ih

namespace BulkBody

open MemoryCluster (member?)

/-- The lines begin with operations that ask for these edits, and others follow. -/
inductive Asks : List (List Char) → List Edit → List (List Char) → Prop where
  | nothing {rest} : Asks rest [] rest
  | put {action source metadata more document lines edits rest}
      (verb : Json.read? action = some (.obj (("index", metadata) :: more)))
      (read : Json.read? source = some document) (others : Asks lines edits rest) :
      Asks (action :: source :: lines)
        (.put ⟨(member? metadata "_index").getD "", (member? metadata "_id").getD "",
          member? metadata "routing", document⟩ :: edits) rest
  | erase {action metadata more lines edits rest}
      (verb : Json.read? action = some (.obj (("delete", metadata) :: more)))
      (others : Asks lines edits rest) :
      Asks (action :: lines)
        (.erase ((member? metadata "_index").getD "") ((member? metadata "_id").getD "") :: edits)
        rest

/-- No operation can be read from the beginning of the lines. -/
inductive Defect : List (List Char) → Prop where
  | action {line rest} (malformed : Json.read? line = none) : Defect (line :: rest)
  | shape {line value rest} (read : Json.read? line = some value)
      (other : ∀ entry more, value ≠ .obj (entry :: more)) : Defect (line :: rest)
  | verb {line verb metadata more rest}
      (read : Json.read? line = some (.obj ((verb, metadata) :: more)))
      (unsupported : verb ≠ "index" ∧ verb ≠ "delete") : Defect (line :: rest)
  | missing {line metadata more}
      (read : Json.read? line = some (.obj (("index", metadata) :: more))) : Defect [line]
  | source {line metadata more source rest}
      (read : Json.read? line = some (.obj (("index", metadata) :: more)))
      (malformed : Json.read? source = none) : Defect (line :: source :: rest)

/-- The lines ask for these edits, and then there is a defect. -/
def BreaksOff (lines : List (List Char)) (edits : List Edit) : Prop :=
  ∃ rest, Asks lines edits rest ∧ Defect rest

/-! ### Reading a body -/

theorem readAction_eq_ok {line : List Char} {verb : String} {metadata : Json}
    {more : List (String × Json)}
    (read : Json.read? line = some (.obj ((verb, metadata) :: more))) :
    MemoryCluster.readAction line = .ok (verb, metadata) := by
  rw [MemoryCluster.readAction, read]

theorem exists_of_readAction {line : List Char} {verb : String} {metadata : Json}
    (read : MemoryCluster.readAction line = .ok (verb, metadata)) :
    ∃ more, Json.read? line = some (.obj ((verb, metadata) :: more)) := by
  unfold MemoryCluster.readAction at read
  split at read
  next => cases read
  next known =>
    obtain ⟨rfl, rfl⟩ := Prod.mk.inj (Except.ok.inj read)
    exact ⟨_, known⟩
  next => cases read

theorem defect_of_readAction {line : List Char} {report : Report} (rest : List (List Char))
    (read : MemoryCluster.readAction line = .error report) : Defect (line :: rest) := by
  unfold MemoryCluster.readAction at read
  split at read
  next malformed => exact .action malformed
  next => cases read
  next value other known =>
    refine .shape known fun entry more same => ?_
    exact other entry.1 entry.2 more same

theorem BreaksOff.now {lines : List (List Char)} (defect : Defect lines) : BreaksOff lines [] :=
  ⟨lines, .nothing, defect⟩

/-- Lines are operations to their end, or they break off. -/
theorem asks_or_breaksOff (lines : List (List Char)) :
    (∃ edits, Asks lines edits []) ∨ ∃ edits, BreaksOff lines edits := by
  have after {lines more : List (List Char)} {edit : Edit}
      (first : ∀ {edits rest}, Asks more edits rest → Asks lines (edit :: edits) rest)
      (others : (∃ edits, Asks more edits []) ∨ ∃ edits, BreaksOff more edits) :
      (∃ edits, Asks lines edits []) ∨ ∃ edits, BreaksOff lines edits := by
    rcases others with ⟨edits, asks⟩ | ⟨edits, rest, asks, defect⟩
    · exact .inl ⟨edit :: edits, first asks⟩
    · exact .inr ⟨edit :: edits, rest, first asks, defect⟩
  fun_induction Edit.ofLines [] lines with
  | case1 => exact .inl ⟨[], .nothing⟩
  | case2 action rest report bad => exact .inr ⟨[], .now (defect_of_readAction rest bad)⟩
  | case3 action metadata read =>
    obtain ⟨more, verb⟩ := exists_of_readAction read
    exact .inr ⟨[], .now (.missing verb)⟩
  | case4 action metadata line rest malformed read =>
    obtain ⟨more, verb⟩ := exists_of_readAction read
    exact .inr ⟨[], .now (.source verb malformed)⟩
  | case5 action metadata index id line rest source parsed read ih =>
    obtain ⟨more, verb⟩ := exists_of_readAction read
    exact after (.put verb parsed) ih
  | case6 action rest metadata index id read other ih =>
    obtain ⟨more, verb⟩ := exists_of_readAction read
    exact after (.erase verb) ih
  | case7 action rest verb metadata read other unknown =>
    obtain ⟨more, known⟩ := exists_of_readAction read
    exact .inr ⟨[], .now (.verb known ⟨other, unknown⟩)⟩

/-! ### Carrying out a body -/

variable {lines rest : List (List Char)} {edits : List Edit}

/-- What the lines ask for is done by the time the others are read. -/
theorem applyLines_asks (asks : Asks lines edits rest) (cluster : MemoryCluster)
    (items : List (List (String × ItemResult))) : ∃ later,
      cluster.applyLines items lines =
        (cluster.edited (Edit.performed cluster.rejected edits)).applyLines later rest := by
  induction asks generalizing cluster items with
  | nothing => exact ⟨items, rfl⟩
  | put verb read others ih =>
    rw [MemoryCluster.applyLines, readAction_eq_ok verb]
    simp only [if_true, read, MemoryCluster.applyIndex_edited]
    rw [Edit.performed_cons, MemoryCluster.edited_append]
    exact ih _ _
  | erase verb others ih =>
    rw [MemoryCluster.applyLines, readAction_eq_ok verb]
    simp only [if_neg (show ¬ "delete" = "index" by decide), if_true,
      MemoryCluster.applyDelete_edited]
    rw [Edit.performed_cons, MemoryCluster.edited_append]
    exact ih _ _

theorem applyLines_defect (defect : Defect lines) (cluster : MemoryCluster)
    (items : List (List (String × ItemResult))) :
    ∃ report, cluster.applyLines items lines = (.error report, cluster) := by
  cases defect with
  | action malformed =>
    rw [MemoryCluster.applyLines, MemoryCluster.readAction, malformed]
    exact ⟨_, rfl⟩
  | @shape line value rest read other =>
    obtain ⟨report, bad⟩ : ∃ report, MemoryCluster.readAction line = .error report := by
      unfold MemoryCluster.readAction
      rw [read]
      split
      next none => cases none
      next verb metadata more same =>
        exact absurd (Option.some.inj same) (other (verb, metadata) more)
      next => exact ⟨_, rfl⟩
    rw [MemoryCluster.applyLines, bad]
    exact ⟨report, rfl⟩
  | verb read unsupported =>
    rw [MemoryCluster.applyLines, readAction_eq_ok read]
    simp only [if_neg unsupported.1, if_neg unsupported.2]
    exact ⟨_, rfl⟩
  | missing read =>
    rw [MemoryCluster.applyLines, readAction_eq_ok read]
    exact ⟨_, rfl⟩
  | source read malformed =>
    rw [MemoryCluster.applyLines, readAction_eq_ok read]
    simp only [if_true, malformed]
    exact ⟨_, rfl⟩

end BulkBody

namespace MemoryCluster

open BulkBody (Asks BreaksOff)

variable {cluster after : MemoryCluster} {body : String} {report : Report} {edits : List Edit}

/-- A body that breaks off has been carried out up to there. -/
theorem bulk_breaksOff (ready : cluster.Open) (breaks : BreaksOff (bodyLines body) edits) :
    ∃ report, cluster.bulk body = (.error report,
      { cluster.edited (Edit.performed cluster.rejected edits) with
        received := body :: cluster.received }) := by
  obtain ⟨rest, asks, defect⟩ := breaks
  obtain ⟨later, run⟩ := BulkBody.applyLines_asks asks
    { cluster with received := body :: cluster.received } []
  obtain ⟨report, stopped⟩ := BulkBody.applyLines_defect defect
    (edited { cluster with received := body :: cluster.received }
      (Edit.performed cluster.rejected edits)) later
  refine ⟨report, ?_⟩
  rw [bulk_open ready, run, stopped]
  rfl

/-- A request that fails got nowhere, or its body breaks off. -/
theorem shut_or_breaksOff (failed : cluster.bulk body = (.error report, after)) :
    ¬ cluster.Open ∨ ∃ edits, BreaksOff (bodyLines body) edits := by
  by_cases ready : cluster.Open
  · refine .inr ((BulkBody.asks_or_breaksOff (bodyLines body)).resolve_left ?_)
    rintro ⟨edits, asks⟩
    obtain ⟨later, run⟩ := BulkBody.applyLines_asks asks
      { cluster with received := body :: cluster.received } []
    rw [bulk_open ready, run] at failed
    cases failed
  · exact .inl ready

/-- What is true of the documents from before is true after a failure just where the request got
nowhere, or it is true of what the body asks for before it breaks off. -/
theorem after_failure (failed : cluster.bulk body = (.error report, after))
    (fact : List StoredDocument → Prop) (before : fact cluster.documents) :
    fact after.documents ↔ ¬ cluster.Open ∨ ∃ edits, BreaksOff (bodyLines body) edits ∧
      fact (cluster.edited (Edit.performed cluster.rejected edits)).documents := by
  by_cases ready : cluster.Open
  · have reached {edits : List Edit} (breaks : BreaksOff (bodyLines body) edits) :
        after.documents = (cluster.edited (Edit.performed cluster.rejected edits)).documents := by
      obtain ⟨_, stopped⟩ := bulk_breaksOff ready breaks
      rw [failed] at stopped
      obtain rfl := (Prod.mk.inj stopped).2
      rfl
    constructor
    · intro kept
      obtain ⟨edits, breaks⟩ := (shut_or_breaksOff failed).resolve_left (absurd ready)
      exact .inr ⟨edits, breaks, reached breaks ▸ kept⟩
    · rintro (shut | ⟨edits, breaks, kept⟩)
      · exact absurd ready shut
      · exact reached breaks ▸ kept
  · obtain ⟨_, _, stopped, same⟩ := bulk_shut ready body
    rw [failed] at stopped
    obtain rfl := (Prod.mk.inj stopped).2
    exact iff_of_true (same ▸ before) (.inl ready)

theorem find?_edited_iff : (∀ index id, (cluster.edited edits).find? index id =
      cluster.find? index id) ↔
    ∀ index id edit, Edit.last? index id edits = some edit →
      edit.leaves = cluster.find? index id := by
  refine forall_congr' fun index => forall_congr' fun id => ?_
  rw [find?_edited]
  cases Edit.last? index id edits with
  | none => simp
  | some edit => simp

/-- A request fails just where it does not get through or its body breaks off. Then the documents
are as they were, in their order, just where it did not get through or what the body asks for first
comes to nothing. The same holds of what stands under each index and id, where the last edit there
has to leave what stood there. A batch whose documents survive their text form is never carried out
in part. -/
theorem bulk_unchanged_iff (cluster : MemoryCluster) (body : String) :
    let breaksOff := BreaksOff (bodyLines body)
    let performed := Edit.performed cluster.rejected
    ((∃ report, (cluster.bulk body).1 = .error report) ↔
      ¬ cluster.Open ∨ ∃ edits, breaksOff edits) ∧
    (∀ report after, cluster.bulk body = (.error report, after) →
      (after.documents = cluster.documents ↔ ¬ cluster.Open ∨ ∃ edits, breaksOff edits ∧
        (cluster.edited (performed edits)).documents = cluster.documents) ∧
      ((∀ index id, after.find? index id = cluster.find? index id) ↔
        ¬ cluster.Open ∨ ∃ edits, breaksOff edits ∧
          ∀ index id edit, Edit.last? index id (performed edits) = some edit →
            edit.leaves = cluster.find? index id) ∧
      ∀ operations : List Operation, (∀ operation ∈ operations, operation.Portable) →
        body = Operation.body operations → after.documents = cluster.documents) := by
  intro breaksOff performed
  refine ⟨⟨?_, ?_⟩, ?_⟩
  · rintro ⟨report, failed⟩
    exact shut_or_breaksOff (Prod.ext failed rfl)
  · intro cause
    by_cases ready : cluster.Open
    · obtain ⟨edits, breaks⟩ := cause.resolve_left (absurd ready)
      obtain ⟨report, failed⟩ := bulk_breaksOff ready breaks
      exact ⟨report, congrArg Prod.fst failed⟩
    · obtain ⟨report, _, failed, _⟩ := bulk_shut ready body
      exact ⟨report, congrArg Prod.fst failed⟩
  · intro report after failed
    refine ⟨after_failure failed (· = cluster.documents) rfl, ?_, ?_⟩
    · simp only [← find?_edited_iff]
      exact after_failure failed
        (fun documents => ∀ index id, documents.find? (isAt index id) = cluster.find? index id)
        fun _ _ => rfl
    · rintro operations portable rfl
      have shut : ¬ cluster.Open := by
        intro ready
        obtain ⟨_, answered, _⟩ := bulk_body ready portable
        rw [failed] at answered
        cases answered
      exact (after_failure failed (· = cluster.documents) rfl).2 (.inl shut)

private def insertsA : Operation := ⟨"i", ⟨.issue, 1, "a", none⟩, some (.obj [])⟩

private def removesB : Operation := ⟨"i", ⟨.issue, 2, "b", none⟩, none⟩

/-- A refused document and a missing one come to nothing before the line that is no action. -/
theorem bulk_unchanged_iff_refused :
    let cluster := { empty with rejected := ["a"] }
    let body := Operation.body [insertsA, removesB] ++ "rest"
    ∃ report after, cluster.bulk body = (.error report, after) ∧
      after.documents = cluster.documents := by
  intro cluster body
  have lines : bodyLines body = [insertsA.action.print, (Json.obj []).print,
      removesB.action.print, "rest".toList] := by decide +kernel
  have idle : ∃ edits, BreaksOff (bodyLines body) edits ∧
      (cluster.edited (Edit.performed cluster.rejected edits)).documents = cluster.documents := by
    rw [lines]
    exact ⟨_, ⟨["rest".toList], .put rfl rfl (.erase rfl .nothing), .action rfl⟩, rfl⟩
  obtain ⟨fails, unchanged⟩ := bulk_unchanged_iff cluster body
  obtain ⟨report, failed⟩ := fails.2 (.inr (idle.imp fun _ idle => idle.1))
  refine ⟨report, (cluster.bulk body).2, Prod.ext failed rfl, ?_⟩
  exact (unchanged report _ (Prod.ext failed rfl)).1.2 (.inr idle)

/-- The document is there although the request has failed. -/
theorem defect_tears_body :
    let done := empty.bulk (Operation.body [insertsA] ++ "rest")
    done.1.isOk = false ∧ done.2.documents.map StoredDocument.key = [("i", "a")] ∧
      done.2.documents ≠ empty.documents := by
  intro done
  have there : done.2.documents.map StoredDocument.key = [("i", "a")] := by decide +kernel
  refine ⟨by decide +kernel, there, ?_⟩
  intro same
  rw [same] at there
  cases there

end MemoryCluster

end SearchRelay
