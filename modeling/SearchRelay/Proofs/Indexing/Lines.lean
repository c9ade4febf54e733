import SearchRelay.Indexing
import SearchRelay.Proofs.Indexer.Batching

/-!
Lines that are indexed one after the other, as calls to the indexer. A line is processed or set
aside; the first one whose record cannot be looked up ends it, and leaves everything as it was.
-/

namespace SearchRelay

variable {σ : Type}

/-- The reference has nothing to look up, or the store can say what there is. -/
def RecordSource.finds (source : RecordSource) (reference : Reference) : Bool :=
  reference.kind.inRepository || (source reference.kind reference.databaseId).isOk

/-- Indexing gets past the line. -/
def RecordSource.answers (source : RecordSource) (line : String) : Bool :=
  match Reference.parse line with
  | .ok reference => source.finds reference
  | .error _ => true

def Reference.isWire (line : String) : Bool := (parse line).isOk

namespace Indexer

theorem decide_error {indexer : Indexer} {source : RecordSource} {reference : Reference} :
    (∃ report, indexer.decide source reference = .error report) ↔
      source.finds reference = false := by
  rw [decide, RecordSource.finds]
  by_cases inside : reference.kind.inRepository
  · simp [inside]
  simp only [inside, Bool.false_eq_true, if_false, Bool.false_or]
  cases source reference.kind reference.databaseId with
  | error report => simp [Except.isOk, Except.toBool]
  | ok found =>
    cases found with
    | none => simp [Except.isOk, Except.toBool]
    | some record =>
      cases indexer.limits with
      | none => simp [Except.isOk, Except.toBool]
      | some limits =>
        by_cases allowed : (limits.allows record).1 <;> simp [allowed, Except.isOk, Except.toBool]

theorem process_finds (backend : Backend σ) (indexer : Indexer) {source : RecordSource}
    {reference : Reference} (state : σ) (found : source.finds reference) :
    (indexer.process backend source reference state).1 = .ok () := by
  cases decision : indexer.decide source reference with
  | error report =>
    rw [decide_error.1 ⟨report, decision⟩] at found
    cases found
  | ok answer =>
    obtain ⟨action, limits⟩ := answer
    cases action <;> simp only [process, decision]

theorem failures_submit (backend : Backend σ) (indexer : Indexer) (operation : Operation)
    (state : σ) :
    indexer.failures.toList <+: (indexer.submit backend operation state).1.failures.toList := by
  have start : indexer.failures.toList <+: (indexer, state).1.failures.toList := List.prefix_refl _
  have early (held : Indexer × σ) (kept : indexer.failures.toList <+: held.1.failures.toList) :
      indexer.failures.toList <+: (held.1.sendEarly backend held.2).1.failures.toList := by
    obtain ⟨failed, sends, -⟩ := sendEarly_eq backend held.1 held.2
    rw [sends]
    exact kept.trans (by simp [sent])
  have push (held : Indexer × σ) (kept : indexer.failures.toList <+: held.1.failures.toList) :
      indexer.failures.toList <+: (held.1.push operation, held.2).1.failures.toList := kept
  have done := submit_keeps early push early start
  exact done

/-- A call adds its failures behind the earlier ones. -/
theorem failures_call (backend : Backend σ) (now : Indexer × σ) (next : Call) :
    now.1.failures.toList <+: (call backend now next).1.failures.toList := by
  cases next with
  | process source reference =>
    simp only [call, process]
    cases now.1.decide source reference with
    | error report => exact List.prefix_refl _
    | ok answer =>
      obtain ⟨action, limits⟩ := answer
      cases action with
      | perform operation => exact failures_submit backend { now.1 with limits := limits } _ _
      | fail => simp [recordFailure]
  | submit operation => exact failures_submit backend now.1 operation now.2
  | flush =>
    obtain ⟨failed, sends, -⟩ := send_eq backend now.1 now.2
    simp only [call, flush, sends]
    simp [sent]

theorem failures_run (backend : Backend σ) (calls : List Call) (now : Indexer × σ) :
    now.1.failures.toList <+: (run backend calls now).1.failures.toList := by
  induction calls generalizing now with
  | nil => exact List.prefix_refl _
  | cons next calls ih => exact (failures_call backend now next).trans (ih (call backend now next))

def calls (source : RecordSource) (lines : List String) : List Call :=
  (lines.filterMap fun line => (Reference.parse line).toOption).map (.process source)

theorem calls_append (source : RecordSource) (before after : List String) :
    calls source (before ++ after) = calls source before ++ calls source after := by
  simp only [calls, List.filterMap_append, List.map_append]

end Indexer

namespace IndexingState

variable {backend : Backend σ} {source : RecordSource}

/-- The state after lines whose records can all be looked up. -/
def after (backend : Backend σ) (source : RecordSource) (lines : List String)
    (state : IndexingState σ) : IndexingState σ :=
  let now := Indexer.run backend (Indexer.calls source lines) (state.indexer, state.backend)
  { processed := state.processed + (lines.filter Reference.isWire).length
    invalid := (lines.filter fun line => !Reference.isWire line).reverse ++ state.invalid
    indexer := now.1
    backend := now.2 }

theorem after_append (backend : Backend σ) (source : RecordSource) (before after : List String)
    (state : IndexingState σ) :
    state.after backend source (before ++ after) =
      (state.after backend source before).after backend source after := by
  simp only [IndexingState.after, Indexer.calls_append, Indexer.run_append, List.filter_append,
    List.length_append, List.reverse_append, Nat.add_assoc, List.append_assoc]

theorem takeLine_eq (backend : Backend σ) (source : RecordSource) (line : String)
    (state : IndexingState σ) :
    (source.answers line →
      state.takeLine backend source line = (.ok (), state.after backend source [line])) ∧
    (source.answers line = false →
      ∃ report, state.takeLine backend source line = (.error report, state)) := by
  rw [takeLine, RecordSource.answers]
  cases parsed : Reference.parse line with
  | error report =>
    simp [after, Indexer.calls, Reference.isWire, parsed, Except.isOk, Except.toBool,
      Except.toOption, Indexer.run]
  | ok reference =>
    dsimp only
    constructor
    · intro answered
      have done := Indexer.process_finds backend state.indexer state.backend answered
      simp only [done, after, Indexer.calls, Reference.isWire, parsed, Except.toOption,
        List.filterMap_cons, List.filter_cons]
      rfl
    · intro silent
      obtain ⟨report, decision⟩ : ∃ report, state.indexer.decide source reference = .error report :=
        Indexer.decide_error.2 silent
      refine ⟨report.within ("💀 IndexerWorker failed on '" ++ reference.wire ++ "'"), ?_⟩
      simp only [Indexer.process, decision]
      rfl

theorem takeLines_eq (backend : Backend σ) (source : RecordSource) (lines : List String)
    (state : IndexingState σ) :
    ∃ answer, state.takeLines backend source lines =
        (answer, state.after backend source (lines.takeWhile source.answers)) ∧
      answer.isOk = lines.all source.answers := by
  induction lines generalizing state with
  | nil => exact ⟨.ok (), rfl, rfl⟩
  | cons line lines ih =>
    obtain ⟨taken, stopped⟩ := takeLine_eq backend source line state
    rw [takeLines, List.all_cons]
    by_cases answered : source.answers line
    · obtain ⟨answer, rest, ok⟩ := ih (state.after backend source [line])
      refine ⟨answer, ?_, by rw [answered, Bool.true_and, ok]⟩
      rw [taken answered, List.takeWhile_cons_of_pos answered]
      exact rest.trans (by rw [← after_append]; rfl)
    · obtain ⟨report, stops⟩ := stopped (Bool.eq_false_iff.2 answered)
      refine ⟨.error report, ?_, by simp [answered, Except.isOk, Except.toBool]⟩
      rw [stops, List.takeWhile_cons_of_neg answered]
      rfl

end IndexingState

open IndexingState in
/-- Lines are indexed up to the first one whose record cannot be looked up; only if there is none
the indexer flushes. -/
theorem indexLines_eq (backend : Backend σ) (source : RecordSource) (lines : List String)
    (state : IndexingState σ) :
    let reached := state.after backend source (lines.takeWhile source.answers)
    (lines.all source.answers →
      indexLines backend source lines state =
        (.ok (reached.finish backend).1, (reached.finish backend).2)) ∧
    (lines.all source.answers = false →
      ∃ report, indexLines backend source lines state = (.error report, reached)) := by
  intro reached
  obtain ⟨answer, taken, ok⟩ := takeLines_eq backend source lines state
  rw [← ok, indexLines, taken]
  cases answer with
  | ok => exact ⟨fun _ => rfl, fun impossible => by cases impossible⟩
  | error report => exact ⟨fun impossible => (by cases impossible), fun _ => ⟨_, rfl⟩⟩

end SearchRelay
