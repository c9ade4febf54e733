import SearchRelay.Proofs.Cache
import SearchRelay.Proofs.Indexer.Batching

/-!
What an indexer does about a reference depends on the store and on the projects that are enabled,
and on nothing that it did before. The remembered answers speed this up; they do not change it.
-/

namespace SearchRelay

namespace Limits

/-- Whether a record is allowed, as it is remembered or else as the policy says. -/
def admits (limits : Limits) (record : Record) : Bool :=
  match record.projectId with
  | none => true
  | some project => (limits.cache.find? (key project)).getD (limits.enabled project)

/-- Asking about one record changes the answer about none. -/
theorem allows_admits (limits : Limits) (record : Record) :
    (limits.allows record).1 = limits.admits record ∧
      (limits.allows record).2.admits = limits.admits := by
  rw [allows]
  unfold admits
  cases record.projectId with
  | none => exact ⟨rfl, rfl⟩
  | some project =>
    cases known : limits.cache.find? (key project) with
    | some answer =>
      simp [AnswerCache.fetch, known]
    | none =>
      simp only [AnswerCache.fetch, known]
      refine ⟨rfl, ?_⟩
      funext other
      cases other.projectId with
      | none => rfl
      | some asked =>
        simp only [AnswerCache.find?_set]
        by_cases same : key asked = key project
        · obtain rfl : asked = project := congrArg Prod.snd same
          simp [known]
        · rw [if_neg same]

end Limits

namespace Indexer

def Decision.operation? : Decision → Option Operation
  | .perform operation => some operation
  | .fail => none

/-- Whether a record may be in the index. Without limits every record may. -/
def admits (limits : Option Limits) (record : Record) : Bool :=
  match limits with
  | none => true
  | some limits => limits.admits record

def plan (index : String) (admits : Record → Bool) (source : RecordSource) (reference : Reference) :
    Option Operation :=
  if reference.kind.inRepository then none
  else
    match source reference.kind reference.databaseId with
    | .error _ => none
    | .ok none => some ⟨index, reference, none⟩
    | .ok (some record) =>
      if admits record then (decideRecord index reference record).operation?
      else some ⟨index, reference, none⟩

theorem decide_plan (indexer : Indexer) (source : RecordSource) (reference : Reference) :
    match indexer.decide source reference with
    | .error _ => plan indexer.index (admits indexer.limits) source reference = none
    | .ok (decision, limits) =>
      plan indexer.index (admits indexer.limits) source reference = decision.operation? ∧
        admits limits = admits indexer.limits := by
  rw [decide, plan]
  by_cases inside : reference.kind.inRepository
  · simp [inside, Decision.operation?]
  simp only [inside, Bool.false_eq_true, if_false]
  cases source reference.kind reference.databaseId with
  | error report => rfl
  | ok found =>
    cases found with
    | none => exact ⟨rfl, rfl⟩
    | some record =>
      cases known : indexer.limits with
      | none => simp [admits]
      | some limits =>
        obtain ⟨answer, unchanged⟩ := limits.allows_admits record
        have kept : admits (some (limits.allows record).2) = admits (some limits) := by
          funext other
          exact congrFun unchanged other
        dsimp only
        by_cases allowed : (limits.allows record).1
        · simp only [allowed, if_true]
          rw [admits, ← answer, allowed]
          exact ⟨rfl, kept⟩
        · simp only [allowed, Bool.false_eq_true, if_false]
          rw [admits, ← answer, if_neg allowed]
          exact ⟨rfl, kept⟩

theorem plan_reference {index : String} {admits : Record → Bool} {source : RecordSource}
    {reference : Reference} {operation : Operation}
    (planned : plan index admits source reference = some operation) :
    operation.index = index ∧ operation.reference = reference := by
  have decided (record : Record)
      (same : (decideRecord index reference record).operation? = some operation) :
      operation.index = index ∧ operation.reference = reference := by
    unfold decideRecord at same
    cases content : record.content with
    | document | excluded =>
      simp only [content] at same
      cases same
      exact ⟨rfl, rfl⟩
    | refused => simp [content, Decision.operation?] at same
  unfold plan at planned
  split at planned
  next => cases planned
  split at planned
  next => cases planned
  next =>
    cases planned
    exact ⟨rfl, rfl⟩
  next record _ =>
    split at planned
    next => exact decided record planned
    next =>
      cases planned
      exact ⟨rfl, rfl⟩

namespace Direct

theorem call_process (index : String) (rejected : List String) (source : RecordSource)
    (reference : Reference) (direct : Direct) :
    let after := direct.call index rejected (.process source reference)
    after.documents = Operation.applyAll rejected
        (plan index (admits direct.limits) source reference).toList direct.documents ∧
      admits after.limits = admits direct.limits := by
  have planned := decide_plan (new index 1 direct.limits) source reference
  simp only [Direct.call]
  cases decision : (new index 1 direct.limits).decide source reference with
  | error report =>
    simp only [decision] at planned
    exact ⟨planned ▸ rfl, rfl⟩
  | ok answer =>
    obtain ⟨action, limits⟩ := answer
    simp only [decision] at planned
    obtain ⟨operation, kept⟩ := planned
    cases action <;> exact ⟨operation ▸ rfl, kept⟩

/-- Processing a queue performs the operations that are planned for its references. -/
theorem run_process (index : String) (rejected : List String) (source : RecordSource)
    (queue : List Reference) (direct : Direct) :
    let after := Direct.run index rejected (queue.map (.process source)) direct
    after.documents = Operation.applyAll rejected
        (queue.filterMap (plan index (admits direct.limits) source)) direct.documents ∧
      admits after.limits = admits direct.limits := by
  induction queue generalizing direct with
  | nil => exact ⟨rfl, rfl⟩
  | cons reference queue ih =>
    obtain ⟨first, kept⟩ := call_process index rejected source reference direct
    obtain ⟨documents, limits⟩ := ih (direct.call index rejected (.process source reference))
    rw [kept] at documents limits
    rw [first, ← Operation.applyAll_append] at documents
    refine ⟨documents.trans ?_, limits⟩
    rw [List.filterMap_cons]
    cases plan index (admits direct.limits) source reference <;> rfl

end Direct

end Indexer

end SearchRelay
