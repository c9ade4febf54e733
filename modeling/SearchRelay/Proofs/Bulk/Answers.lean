import Mathlib
import SearchRelay.Bulk.Response

/-!
Answers to bulk requests. A whole answer tells the failed operations by the places of its items. One
that is cut short leaves out the items that report no failure, or leaves them empty, and tells them by
the ids: they are the same operations, as long as no two of them are on one document.
-/

namespace SearchRelay

/-- The item holds one verdict, on the document of the operation. -/
def Operation.AnsweredBy (operation : Operation) (item : List (String × ItemResult)) : Prop :=
  ∃ verb verdict, item = [(verb, verdict)] ∧ verdict.id = operation.reference.searchId

/-- What distinct keys pick out of a list is what they are the keys of. -/
theorem filter_contains_of_sublist {α : Type} {key : α → String} {part whole : List α}
    (inside : part.Sublist whole) (distinct : (whole.map key).Nodup) :
    (whole.filter fun item => (part.map key).contains (key item)) = part := by
  induction inside with
  | slnil => rfl
  | @cons part whole first inside ih =>
    obtain ⟨fresh, others⟩ := List.nodup_cons.1 distinct
    have foreign : key first ∉ part.map key := fun here => fresh ((inside.map key).subset here)
    rw [List.filter_cons_of_neg (by simpa using foreign), ih others]
  | @cons_cons part whole first inside ih =>
    obtain ⟨fresh, others⟩ := List.nodup_cons.1 distinct
    rw [List.filter_cons_of_pos (by simp)]
    refine congrArg (first :: ·) (Eq.trans (List.filter_congr fun item here => ?_) (ih others))
    have apart : key item ≠ key first := fun same => fresh (same ▸ List.mem_map_of_mem here)
    simp [apart]

namespace BulkResponse

def reportsFailure (item : List (String × ItemResult)) : Bool :=
  item.any fun entry => entry.2.failed

/-- What may be left of items. Those that report no failure may be missing, or be there without a
verdict. -/
inductive Shortened :
    List (List (String × ItemResult)) → List (List (String × ItemResult)) → Prop
  | nil : Shortened [] []
  | kept (item) {items left} (rest : Shortened items left) : Shortened (item :: items) (item :: left)
  | dropped {item items left} (fine : reportsFailure item = false) (rest : Shortened items left) :
    Shortened (item :: items) left
  | emptied {item items left} (fine : reportsFailure item = false) (rest : Shortened items left) :
    Shortened (item :: items) ([] :: left)

/-- The operations whose items report a failure. -/
def failing (operations : List Operation) (items : List (List (String × ItemResult))) :
    List Operation :=
  ((operations.zip items).filter fun pair => reportsFailure pair.2).map Prod.fst

/-- The references of the operations that are on documents of failed items. -/
def failedByIds (response : BulkResponse) (operations : List Operation) : List Reference :=
  let failed := (response.results.filter ItemResult.failed).map ItemResult.id
  (operations.filter fun operation => failed.contains operation.reference.searchId).map
    Operation.reference

/-! ### Verdicts -/

def verdicts (items : List (List (String × ItemResult))) : List ItemResult :=
  items.filterMap fun item => item.head?.map Prod.snd

theorem verdicts_cons (item : List (String × ItemResult)) (items : List (List (String × ItemResult))) :
    verdicts (item :: items) = (item.head?.map Prod.snd).toList ++ verdicts items := by
  cases item with
  | nil => rfl
  | cons entry more => rfl

theorem verdicts_empty (items : List (List (String × ItemResult))) :
    verdicts ([] :: items) = verdicts items := rfl

theorem verdicts_single (verb : String) (verdict : ItemResult)
    (items : List (List (String × ItemResult))) :
    verdicts ([(verb, verdict)] :: items) = verdict :: verdicts items := rfl

section
variable {items left : List (List (String × ItemResult))}

theorem filter_verdict {item : List (String × ItemResult)} (fine : reportsFailure item = false) :
    (item.head?.map Prod.snd).toList.filter ItemResult.failed = [] := by
  cases item with
  | nil => rfl
  | cons entry more =>
    obtain ⟨first, -⟩ := Bool.or_eq_false_iff.1 fine
    exact List.filter_cons_of_neg (by simp [first])

theorem Shortened.verdicts_sublist (shortened : Shortened items left) :
    (verdicts left).Sublist (verdicts items) := by
  induction shortened with
  | nil => exact List.Sublist.refl _
  | kept item rest ih =>
    rw [verdicts_cons, verdicts_cons]
    exact (List.Sublist.refl _).append ih
  | dropped fine rest ih =>
    rw [verdicts_cons]
    exact List.sublist_append_of_sublist_right ih
  | emptied fine rest ih =>
    rw [verdicts_empty, verdicts_cons]
    exact List.sublist_append_of_sublist_right ih

/-- No failure is left out. -/
theorem Shortened.filter_verdicts (shortened : Shortened items left) :
    (verdicts left).filter ItemResult.failed = (verdicts items).filter ItemResult.failed := by
  induction shortened with
  | nil => rfl
  | kept item rest ih => rw [verdicts_cons, verdicts_cons, List.filter_append, List.filter_append, ih]
  | dropped fine rest ih => rw [verdicts_cons, List.filter_append, filter_verdict fine, ih]; rfl
  | emptied fine rest ih =>
    rw [verdicts_empty, verdicts_cons, List.filter_append, filter_verdict fine, ih]
    rfl

end

/-! ### Places and ids -/

section
variable (operation : Operation) (operations : List Operation) (verb : String)
  (verdict : ItemResult) (item : List (String × ItemResult)) (items : List (List (String × ItemResult)))

theorem reportsFailure_single : reportsFailure [(verb, verdict)] = verdict.failed := by
  simp [reportsFailure]

theorem failing_cons : failing (operation :: operations) (item :: items) =
    if reportsFailure item then operation :: failing operations items
    else failing operations items := by
  rw [failing, List.zip_cons_cons, List.filter_cons]
  split
  next => rfl
  next => rfl

end

section
variable {operations : List Operation} {items : List (List (String × ItemResult))}
  (answered : List.Forall₂ Operation.AnsweredBy operations items)
include answered

theorem length_verdicts : (verdicts items).length = operations.length := by
  induction answered with
  | nil => rfl
  | cons first _ ih =>
    obtain ⟨verb, verdict, rfl, -⟩ := first
    rw [verdicts_single, List.length_cons, ih, List.length_cons]

theorem failing_sublist : (failing operations items).Sublist operations := by
  have part : (failing operations items).Sublist ((operations.zip items).map Prod.fst) :=
    List.filter_sublist.map Prod.fst
  rwa [List.map_fst_zip answered.length_eq.le] at part

/-- By its place an operation has the verdict of its item. -/
theorem failing_eq : failing operations items =
    ((operations.zip (verdicts items)).filter fun pair => pair.2.failed).map Prod.fst := by
  induction answered with
  | nil => rfl
  | cons first _ ih =>
    obtain ⟨verb, verdict, rfl, -⟩ := first
    rw [failing_cons, verdicts_single, List.zip_cons_cons, List.filter_cons, reportsFailure_single, ih]
    split
    next => rfl
    next => rfl

/-- The failed items bear the ids of the operations that failed. -/
theorem ids_failing : (failing operations items).map (fun operation => operation.reference.searchId) =
    ((verdicts items).filter ItemResult.failed).map ItemResult.id := by
  induction answered with
  | nil => rfl
  | cons first _ ih =>
    obtain ⟨verb, verdict, rfl, same⟩ := first
    rw [failing_cons, verdicts_single, List.filter_cons, reportsFailure_single]
    split
    next => rw [List.map_cons, List.map_cons, ih, same]
    next => exact ih

end

theorem failedReferences_of_answered {operations : List Operation} {response : BulkResponse}
    (answered : List.Forall₂ Operation.AnsweredBy operations response.items) :
    response.failedReferences operations =
      (failing operations response.items).map Operation.reference := by
  have whole : response.results.length = operations.length := length_verdicts answered
  rw [failedReferences, if_pos whole, failing_eq answered, List.map_map]
  rfl

section
variable {operations : List Operation} {full short : BulkResponse}
  (answered : List.Forall₂ Operation.AnsweredBy operations full.items)
  (shortened : Shortened full.items short.items)
include answered shortened

theorem Shortened.failedByIds
    (distinct : (operations.map fun operation => operation.reference.searchId).Nodup) :
    short.failedByIds operations = (failing operations full.items).map Operation.reference := by
  have failed : (short.results.filter ItemResult.failed).map ItemResult.id =
      (failing operations full.items).map fun operation => operation.reference.searchId := by
    rw [ids_failing answered, ← shortened.filter_verdicts]
    rfl
  rw [BulkResponse.failedByIds, failed]
  exact congrArg _ (filter_contains_of_sublist (failing_sublist answered) distinct)

theorem Shortened.failedReferences
    (distinct : (operations.map fun operation => operation.reference.searchId).Nodup) :
    short.failedReferences operations = (failing operations full.items).map Operation.reference := by
  by_cases whole : short.results.length = operations.length
  · -- with so many verdicts none is missing
    have same : short.results = full.results :=
      shortened.verdicts_sublist.eq_of_length (whole.trans (length_verdicts answered).symm)
    rw [← failedReferences_of_answered answered, BulkResponse.failedReferences, same]
    rfl
  · rw [BulkResponse.failedReferences, if_neg whole]
    exact shortened.failedByIds answered distinct

end

/-- Whatever items without a failure are missing from an answer or empty in it, the failed
references are those that the whole answer tells by the places of its items. They are those that the
ids of the failed items tell. -/
theorem failedReferences_of_shortened {operations : List Operation}
    (distinct : (operations.map fun operation => operation.reference.searchId).Nodup)
    {full : BulkResponse} (answered : List.Forall₂ Operation.AnsweredBy operations full.items) :
    let failed := (failing operations full.items).map Operation.reference
    full.failedReferences operations = failed ∧
      ∀ short : BulkResponse, Shortened full.items short.items →
        short.failedReferences operations = failed ∧ short.failedByIds operations = failed :=
  ⟨failedReferences_of_answered answered, fun _ shortened =>
    ⟨shortened.failedReferences answered distinct, shortened.failedByIds answered distinct⟩⟩

private def upsert (id : Nat) : Operation :=
  ⟨"main", ⟨.issue, id, Kind.issue.searchId id, none⟩, some .null⟩

private def onIssue (id : Nat) (error : Option Json) : List (String × ItemResult) :=
  [("index", ⟨Kind.issue.searchId id, if error.isSome then 429 else 200, none, error⟩)]

private def busy : Option Json := some (.str "too many requests")

/-- Of four items the first is left empty and the third is missing. -/
theorem failedReferences_of_shortened_gaps :
    let operations := [upsert 1, upsert 2, upsert 3, upsert 4]
    let full : BulkResponse :=
      ⟨true, [onIssue 1 none, onIssue 2 busy, onIssue 3 none, onIssue 4 busy]⟩
    let short : BulkResponse := ⟨true, [[], onIssue 2 busy, onIssue 4 busy]⟩
    ((operations.map fun operation => operation.reference.searchId).Nodup ∧
      List.Forall₂ Operation.AnsweredBy operations full.items ∧
      Shortened full.items short.items) ∧
    full.failedReferences operations = [(upsert 2).reference, (upsert 4).reference] ∧
      short.failedReferences operations = [(upsert 2).reference, (upsert 4).reference] ∧
      short.failedByIds operations = [(upsert 2).reference, (upsert 4).reference] := by
  intro operations full short
  have distinct : (operations.map fun operation => operation.reference.searchId).Nodup := by decide
  have on (id : Nat) (error : Option Json) : (upsert id).AnsweredBy (onIssue id error) :=
    ⟨_, _, rfl, rfl⟩
  have answered : List.Forall₂ Operation.AnsweredBy operations full.items :=
    .cons (on 1 _) (.cons (on 2 _) (.cons (on 3 _) (.cons (on 4 _) .nil)))
  have shortened : Shortened full.items short.items :=
    .emptied rfl (.kept _ (.dropped rfl (.kept _ .nil)))
  obtain ⟨whole, cut⟩ := failedReferences_of_shortened distinct answered
  exact ⟨⟨distinct, answered, shortened⟩, whole, cut short shortened⟩

end BulkResponse

end SearchRelay
