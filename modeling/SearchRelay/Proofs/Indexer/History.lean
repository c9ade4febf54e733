import SearchRelay.Proofs.Indexer.Batching

/-!
The history of an indexer, cut into stretches by its flushes. Of every stretch it is known which
operations came in, which requests went out with which answers, and which references failed; the
flush at its end names just these.
-/

namespace SearchRelay

variable {σ : Type} {backend : Backend σ}

namespace Backend

/-- A backend that keeps the bulk requests it got, each with its answer, the first one first. -/
def recording (backend : Backend σ) : Backend (σ × List (String × Outcome BulkResponse)) where
  bulk := fun body (state, log) =>
    let (answer, state) := backend.bulk body state
    (answer, state, log ++ [(body, answer)])
  search := fun request (state, log) =>
    let (answer, state) := backend.search request state
    (answer, state, log)
  count := fun request (state, log) =>
    let (answer, state) := backend.count request state
    (answer, state, log)

theorem replay_recording (bodies : List String) (state : σ)
    (log : List (String × Outcome BulkResponse)) :
    let asked := backend.replay bodies state
    backend.recording.replay bodies (state, log) = (asked.1, asked.2, log ++ bodies.zip asked.1) := by
  induction bodies generalizing state log with
  | nil => simp [replay]
  | cons body bodies ih =>
    dsimp only at ih ⊢
    simp only [replay, recording] at ih ⊢
    rw [ih]
    simp

/-- The kept requests are those that were sent, and the kept answers those that were given. -/
theorem log_replay (bodies : List String) (state : σ) :
    let asked := backend.recording.replay bodies (state, [])
    asked.2.2.map Prod.fst = bodies ∧ asked.2.2.map Prod.snd = asked.1 := by
  have even := backend.length_replay bodies state
  simp only [replay_recording, List.nil_append]
  exact ⟨List.map_fst_zip even.ge, List.map_snd_zip even.le⟩

end Backend

namespace Indexer

/-! ### Keeping requests changes nothing -/

theorem send_recording (backend : Backend σ) (indexer : Indexer)
    (state : σ × List (String × Outcome BulkResponse)) :
    let plain := indexer.send backend state.1
    ∃ log, indexer.send backend.recording state = (plain.1, plain.2.1, plain.2.2, log) := by
  by_cases nothing : indexer.pending.isEmpty
  · exact ⟨state.2, by simp only [send, if_pos nothing]⟩
  · simp only [send, if_neg nothing]
    exact ⟨_, rfl⟩

theorem sendEarly_recording (backend : Backend σ) (indexer : Indexer)
    (state : σ × List (String × Outcome BulkResponse)) :
    let plain := indexer.sendEarly backend state.1
    ∃ log, indexer.sendEarly backend.recording state = (plain.1, plain.2, log) := by
  obtain ⟨log, sends⟩ := send_recording backend indexer state
  exact ⟨log, by simp only [sendEarly, sends]⟩

theorem submit_recording (backend : Backend σ) (indexer : Indexer) (operation : Operation)
    (state : σ × List (String × Outcome BulkResponse)) :
    let plain := indexer.submit backend operation state.1
    ∃ log, indexer.submit backend.recording operation state = (plain.1, plain.2, log) := by
  have placed (held : Indexer) (state : σ × List (String × Outcome BulkResponse)) (large : Prop)
      [Decidable large] : ∃ log,
        (if large then held.sendEarly backend.recording state else (held, state)) =
          ((if large then held.sendEarly backend state.1 else (held, state.1)).1,
            (if large then held.sendEarly backend state.1 else (held, state.1)).2, log) := by
    by_cases sent : large
    · simp only [if_pos sent]
      exact sendEarly_recording backend held state
    · exact ⟨state.2, by simp only [if_neg sent]⟩
  unfold submit
  dsimp only
  obtain ⟨log, early⟩ := placed indexer state
    (!indexer.pending.isEmpty && indexer.limit < indexer.pendingBytes + operation.byteLength)
  rw [early]
  exact placed _ (_, log) _

theorem process_recording (backend : Backend σ) (source : RecordSource) (indexer : Indexer)
    (reference : Reference) (state : σ × List (String × Outcome BulkResponse)) :
    let plain := indexer.process backend source reference state.1
    ∃ log, indexer.process backend.recording source reference state =
      (plain.1, plain.2.1, plain.2.2, log) := by
  cases decision : indexer.decide source reference with
  | error report => exact ⟨state.2, by simp only [process, decision]⟩
  | ok answer =>
    obtain ⟨action, limits⟩ := answer
    cases action with
    | fail => exact ⟨state.2, by simp only [process, decision]⟩
    | perform operation =>
      obtain ⟨log, submits⟩ := submit_recording backend
        { indexer with limits := limits } operation state
      exact ⟨log, by simp only [process, decision, submits]⟩

theorem flush_recording (backend : Backend σ) (indexer : Indexer)
    (state : σ × List (String × Outcome BulkResponse)) :
    let plain := indexer.flush backend state.1
    ∃ log, indexer.flush backend.recording state = (plain.1, plain.2.1, plain.2.2, log) := by
  obtain ⟨log, sends⟩ := send_recording backend indexer state
  exact ⟨log, by simp only [flush, sends]⟩

/-! ### Records without a document -/

/-- Nothing can be put into the index for the reference, and nothing has to be removed from it. -/
def Undocumentable (indexer : Indexer) (source : RecordSource) (reference : Reference) : Prop :=
  reference.kind.inRepository ∨ ∃ record reason,
    source reference.kind reference.databaseId = .ok (some record) ∧
      (∀ limits, indexer.limits = some limits → (limits.allows record).1) ∧
      record.content = .refused reason

theorem decideRecord_fail {index : String} {reference : Reference} {record : Record} :
    decideRecord index reference record = .fail ↔ ∃ reason, record.content = .refused reason := by
  rw [decideRecord]
  cases record.content <;> simp

theorem decide_fail {indexer : Indexer} {source : RecordSource} {reference : Reference} :
    (∃ limits, indexer.decide source reference = .ok (.fail, limits)) ↔
      indexer.Undocumentable source reference := by
  rw [decide, Undocumentable]
  by_cases inside : reference.kind.inRepository
  · simp [inside]
  simp only [inside, Bool.false_eq_true, if_false, false_or]
  cases source reference.kind reference.databaseId with
  | error report => simp
  | ok found =>
    cases found with
    | none => simp
    | some record =>
      cases indexer.limits with
      | none => simp [decideRecord_fail]
      | some limits =>
        by_cases allowed : (limits.allows record).1 <;> simp [allowed, decideRecord_fail]

/-! ### Stretches -/

/-- What happens between two flushes. -/
structure Stretch where
  added : List Operation
  /-- The references that failed without a request. -/
  undone : List Reference
  /-- The bodies of the requests and their answers. -/
  log : List (String × Outcome BulkResponse)

namespace Stretch

def empty : Stretch := ⟨[], [], []⟩

/-- Takes down what a call decides, apart from its requests. -/
def note (stretch : Stretch) (indexer : Indexer) : Call → Stretch
  | .process source reference =>
    match indexer.decide source reference with
    | .error _ => stretch
    | .ok (.fail, _) => { stretch with undone := stretch.undone ++ [reference] }
    | .ok (.perform operation, _) => { stretch with added := stretch.added ++ [operation] }
  | .submit operation => { stretch with added := stretch.added ++ [operation] }
  | .flush => stretch

/-- The requests have carried these operations. -/
def Carried (stretch : Stretch) (batches : List (List Operation)) : Prop :=
  stretch.log.map Prod.fst = batches.map Operation.body

def Failed (stretch : Stretch) (batches : List (List Operation)) (reference : Reference) : Prop :=
  Lost stretch.undone batches (stretch.log.map Prod.snd) reference

end Stretch

/-- An indexer at work, with the stretch that it is in. Every earlier stretch comes with what the
flush at its end returned. -/
structure History (σ : Type) where
  indexer : Indexer
  state : σ
  closed : List (Stretch × List Reference)
  current : Stretch

namespace History

def start (indexer : Indexer) (state : σ) : History σ := ⟨indexer, state, [], .empty⟩

def call (backend : Backend σ) (history : History σ) (call : Call) : History σ :=
  let noted := history.current.note history.indexer call
  let recorded := (history.state, history.current.log)
  match call with
  | .flush =>
    let (returned, indexer, state, log) := history.indexer.flush backend.recording recorded
    ⟨indexer, state, history.closed ++ [({ noted with log := log }, returned)], .empty⟩
  | call =>
    let (indexer, state, log) := Indexer.call backend.recording (history.indexer, recorded) call
    ⟨indexer, state, history.closed, { noted with log := log }⟩

def run (backend : Backend σ) (calls : List Call) (history : History σ) : History σ :=
  calls.foldl (call backend) history

theorem call_eq (backend : Backend σ) (history : History σ) (call : Call) :
    ((history.call backend call).indexer, (history.call backend call).state) =
      Indexer.call backend (history.indexer, history.state) call := by
  cases call with
  | process source reference =>
    obtain ⟨log, same⟩ := process_recording backend source history.indexer reference
      (history.state, history.current.log)
    simp only [History.call, Indexer.call, same]
  | submit operation =>
    obtain ⟨log, same⟩ := submit_recording backend history.indexer operation
      (history.state, history.current.log)
    simp only [History.call, Indexer.call, same]
  | flush =>
    obtain ⟨log, same⟩ := flush_recording backend history.indexer
      (history.state, history.current.log)
    simp only [History.call, Indexer.call, same]

/-- What a submission makes of a history, after the limits may have learnt something. -/
def submitted (backend : Backend σ) (history : History σ) (limits : Option Limits)
    (operation : Operation) : History σ :=
  let (indexer, state, log) := ({ history.indexer with limits := limits } : Indexer).submit
    backend.recording operation (history.state, history.current.log)
  ⟨indexer, state, history.closed,
    { history.current with added := history.current.added ++ [operation], log := log }⟩

/-- What a reference that fails without a request makes of a history. -/
def refused (history : History σ) (limits : Option Limits) (reference : Reference) : History σ :=
  { history with
    indexer := ({ history.indexer with limits := limits } : Indexer).recordFailure reference
    current := { history.current with undone := history.current.undone ++ [reference] } }

/-- What a call can do to a history. -/
theorem call_cases (backend : Backend σ) (history : History σ) (call : Call) :
    history.call backend call = history ∨
      (∃ limits operation, history.call backend call = history.submitted backend limits operation) ∨
      (∃ limits reference, history.call backend call = history.refused limits reference) ∨
      call = .flush := by
  cases call with
  | flush => exact Or.inr (Or.inr (Or.inr rfl))
  | submit operation => exact Or.inr (Or.inl ⟨history.indexer.limits, operation, rfl⟩)
  | process source reference =>
    cases decision : history.indexer.decide source reference with
    | error report =>
      left
      simp only [History.call, Indexer.call, Indexer.process, Stretch.note, decision]
    | ok answer =>
      obtain ⟨action, limits⟩ := answer
      right
      cases action with
      | perform operation =>
        refine Or.inl ⟨limits, operation, ?_⟩
        simp only [History.call, Indexer.call, Indexer.process, Stretch.note, decision, submitted]
      | fail =>
        refine Or.inr (Or.inl ⟨limits, reference, ?_⟩)
        simp only [History.call, Indexer.call, Indexer.process, Stretch.note, decision, refused]

theorem closed_flush (backend : Backend σ) (history : History σ) :
    (history.call backend .flush).closed.map Prod.snd =
      history.closed.map Prod.snd ++ [(history.indexer.flush backend history.state).1] := by
  obtain ⟨log, same⟩ := flush_recording backend history.indexer
    (history.state, history.current.log)
  simp only [History.call, same, List.map_append, List.map_singleton]

theorem run_eq (backend : Backend σ) (calls : List Call) (history : History σ) :
    ((history.run backend calls).indexer, (history.run backend calls).state) =
      Indexer.run backend calls (history.indexer, history.state) := by
  induction calls generalizing history with
  | nil => rfl
  | cons call calls ih =>
    have step := history.call_eq backend call
    rw [Indexer.run, List.foldl_cons, ← step]
    exact ih (history.call backend call)

def bodies (history : History σ) : List String :=
  history.closed.flatMap (fun entry => entry.1.log.map Prod.fst) ++
    history.current.log.map Prod.fst

def added (history : History σ) : List Operation :=
  history.closed.flatMap (fun entry => entry.1.added) ++ history.current.added

/-! ### What every history keeps -/

/-- Every flush returned what failed in its stretch, and what failed since then is still to be
reported. -/
structure Sound (backend : Backend σ) (largest : Nat) (history : History σ) : Prop where
  closed : ∀ entry ∈ history.closed, ∃ batches,
    entry.1.Carried batches ∧ batches.flatten = entry.1.added ∧ Cut largest batches ∧
      ∀ reference, reference ∈ entry.2 ↔ entry.1.Failed batches reference
  current : ∃ batches origin,
    Sends backend.recording (origin, []) history.current.added history.current.undone batches
      (history.indexer, history.state, history.current.log) ∧
    Rests largest batches history.indexer
  failures : ∀ reference, reference ∈ history.indexer.failures ↔
    (∃ entry ∈ history.closed, reference ∈ entry.2) ∨ reference ∈ history.indexer.unreported

end History

variable {largest : Nat} {indexer : Indexer}

/-- The failures of an indexer are those that it reported and those that it will report. -/
def Keeps (told : Reference → Prop) (indexer : Indexer) : Prop :=
  ∀ reference, reference ∈ indexer.failures ↔ told reference ∨ reference ∈ indexer.unreported

theorem Keeps.sendEarly {told : Reference → Prop} (keeps : Keeps told indexer) (state : σ) :
    Keeps told (indexer.sendEarly backend state).1 := by
  obtain ⟨failed, answer, -⟩ := sendEarly_eq backend indexer state
  intro reference
  have before := keeps reference
  rw [← Array.mem_toList_iff, ← Array.mem_toList_iff] at before ⊢
  simp only [answer, sent, Array.toList_appendList, List.mem_append, before, or_assoc]

theorem Keeps.submit {told : Reference → Prop} (keeps : Keeps told indexer) (operation : Operation)
    (state : σ) : Keeps told (indexer.submit backend operation state).1 := by
  have early (now : Indexer × σ) (kept : Keeps told now.1) :
      Keeps told (now.1.sendEarly backend now.2).1 := kept.sendEarly now.2
  have push (now : Indexer × σ) (kept : Keeps told now.1) :
      Keeps told (now.1.push operation, now.2).1 := kept
  have start : Keeps told (indexer, state).1 := keeps
  have done := submit_keeps early push early start
  exact done

theorem Rests.flushed {batches : List (List Operation)} (rests : Rests largest batches indexer)
    (failed : List Reference) :
    Rests largest [] { indexer.sent failed with unreported := #[] } := by
  have clear : (indexer.sent failed).pendingBytes = 0 := by
    rw [sent]
    dsimp only
    split
    next nothing => rw [rests.bytes, Array.isEmpty_iff.1 nothing]; rfl
    next => rfl
  exact .idle rests.limit rfl clear rfl

namespace History

variable {history : History σ}

theorem Sound.submitted (sound : history.Sound backend largest) (limits : Option Limits)
    (operation : Operation) :
    (history.submitted backend limits operation).Sound backend largest := by
  obtain ⟨batches, origin, sends, rests⟩ := sound.current
  obtain ⟨more, -, joined, cut⟩ := (sends.relimit limits).submit operation
  refine ⟨sound.closed, ⟨batches ++ more, origin, joined, cut _ (rests.relimit limits)⟩, ?_⟩
  have keeps : Keeps (fun reference => ∃ entry ∈ history.closed, reference ∈ entry.2)
      { history.indexer with limits := limits } := sound.failures
  exact keeps.submit operation _

theorem Sound.refused (sound : history.Sound backend largest) (limits : Option Limits)
    (reference : Reference) : (history.refused limits reference).Sound backend largest := by
  obtain ⟨batches, origin, sends, rests⟩ := sound.current
  refine ⟨sound.closed, ⟨batches, origin, (sends.relimit limits).recordFailure reference, ?_⟩, ?_⟩
  · exact ⟨⟨rests.limit, rests.bytes, rests.phase, rests.cut, rests.full⟩, rests.within⟩
  · intro other
    have before := sound.failures other
    simp only [History.refused, recordFailure, Array.mem_push, before, or_assoc]

theorem Sound.flush (sound : history.Sound backend largest) :
    (history.call backend .flush).Sound backend largest := by
  obtain ⟨batches, origin, sends, rests⟩ := sound.current
  obtain ⟨returned, failed, answer, whole, lost, together⟩ := sends.flush
  obtain ⟨bodies, answers⟩ := backend.log_replay
    ((batches ++ history.indexer.waiting).map Operation.body) origin
  simp only [call, Stretch.note, answer]
  -- the stretch that ends here becomes a closed one, and the next one starts with nothing
  refine ⟨?_, ⟨[], _, Sends.fresh rfl rfl _, rests.flushed failed⟩, ?_⟩
  · intro entry member
    rcases List.mem_append.1 member with old | new
    · exact sound.closed entry old
    · obtain rfl := List.mem_singleton.1 new
      refine ⟨batches ++ history.indexer.waiting, bodies, whole, rests.cut, fun reference => ?_⟩
      rw [lost, Stretch.Failed, answers]
  · intro reference
    have before := sound.failures reference
    simp only [← Array.mem_toList_iff] at before together
    simp only [sent, ← Array.mem_toList_iff, Array.toList_appendList, List.mem_append,
      List.mem_singleton, or_and_right, exists_or, exists_eq_left, List.not_mem_nil, or_false,
      before, together, or_assoc]

theorem Sound.call (sound : history.Sound backend largest) (call : Call) :
    (history.call backend call).Sound backend largest := by
  rcases history.call_cases backend call with
    same | ⟨limits, operation, submits⟩ | ⟨limits, reference, fails⟩ | rfl
  · exact same.symm ▸ sound
  · exact submits ▸ sound.submitted limits operation
  · exact fails ▸ sound.refused limits reference
  · exact sound.flush

theorem Sound.run (sound : history.Sound backend largest) (calls : List Call) :
    (history.run backend calls).Sound backend largest := by
  induction calls generalizing history with
  | nil => exact sound
  | cons call calls ih => exact ih (sound.call call)

theorem Sound.new (index : String) (limit : Nat) (limits : Option Limits) (state : σ) :
    (start (new index limit limits) state).Sound backend (max limit 1) := by
  refine ⟨?_, ⟨[], state, Sends.fresh rfl rfl _, .idle rfl rfl rfl rfl⟩, ?_⟩
  · intro entry missing
    cases missing
  · intro reference
    simp [start, Indexer.new]

/-- The log of a stretch holds the requests that were sent, and the answers to them. -/
theorem log_of_sends {batches : List (List Operation)} {origin : σ}
    (sends : Sends backend.recording (origin, []) history.current.added history.current.undone
      batches (history.indexer, history.state, history.current.log)) :
    history.current.Carried batches ∧ history.current.log.map Prod.snd =
      (backend.recording.replay (batches.map Operation.body) (origin, [])).1 := by
  have log : history.current.log =
      (backend.recording.replay (batches.map Operation.body) (origin, [])).2.2 :=
    congrArg Prod.snd sends.state
  rw [Stretch.Carried, log]
  exact backend.log_replay (batches.map Operation.body) origin

theorem Sound.carried (sound : history.Sound backend largest) {batches : List (List Operation)}
    {origin : σ}
    (sends : Sends backend.recording (origin, []) history.current.added history.current.undone
      batches (history.indexer, history.state, history.current.log)) :
    history.current.Carried batches ∧
      ∀ reference, reference ∈ history.indexer.failures ↔
        (∃ entry ∈ history.closed, reference ∈ entry.2) ∨
          history.current.Failed batches reference := by
  obtain ⟨carried, answers⟩ := log_of_sends sends
  refine ⟨carried, fun reference => ?_⟩
  rw [sound.failures, sends.failed, Stretch.Failed, answers]

theorem Sound.conserves (sound : history.Sound backend largest) :
    ∃ batches : List (List Operation), history.bodies = batches.map Operation.body ∧
      batches.flatten ++ history.indexer.pending.toList = history.added := by
  obtain ⟨batches, origin, sends, -⟩ := sound.current
  obtain ⟨carried, -⟩ := sound.carried sends
  -- the requests of the earlier stretches, one stretch after the other
  have earlier (entries : List (Stretch × List Reference))
      (each : ∀ entry ∈ entries, ∃ batches, entry.1.Carried batches ∧
        batches.flatten = entry.1.added) :
      ∃ batches : List (List Operation),
        entries.flatMap (fun entry => entry.1.log.map Prod.fst) = batches.map Operation.body ∧
        batches.flatten = entries.flatMap fun entry => entry.1.added := by
    induction entries with
    | nil => exact ⟨[], rfl, rfl⟩
    | cons entry entries ih =>
      obtain ⟨⟨first, bodies, whole⟩, others⟩ := List.forall_mem_cons.1 each
      obtain ⟨rest, more, remaining⟩ := ih others
      refine ⟨first ++ rest, ?_, ?_⟩
      · rw [List.flatMap_cons, bodies, more, List.map_append]
      · rw [List.flatten_append, whole, remaining, List.flatMap_cons]
  obtain ⟨before, bodies, whole⟩ := earlier history.closed fun entry member =>
    have ⟨batches, carried, whole, _⟩ := sound.closed entry member
    ⟨batches, carried, whole⟩
  refine ⟨before ++ batches, ?_, ?_⟩
  · rw [History.bodies, bodies, carried, List.map_append]
  · rw [List.flatten_append, whole, List.append_assoc, sends.whole, History.added]

theorem call_flush_flush (backend : Backend σ) (history : History σ) :
    let flushed := history.call backend .flush
    flushed.indexer.pending = #[] ∧
      flushed.call backend .flush =
        { flushed with closed := flushed.closed ++ [(.empty, [])] } := by
  obtain ⟨failed, sends, -⟩ := send_eq backend.recording history.indexer
    (history.state, history.current.log)
  simp only [call, Indexer.flush, sends]
  exact ⟨rfl, rfl⟩

theorem call_process_error (backend : Backend σ) {history : History σ} {source : RecordSource}
    {reference : Reference} {report : Report}
    (fails : (history.indexer.process backend source reference history.state).1 = .error report) :
    history.call backend (.process source reference) = history := by
  cases decision : history.indexer.decide source reference with
  | error report => simp only [call, Indexer.call, Indexer.process, Stretch.note, decision]
  | ok answer =>
    obtain ⟨action, limits⟩ := answer
    cases action <;> simp only [Indexer.process, decision, reduceCtorEq] at fails

theorem undone_process (backend : Backend σ) (history : History σ) (source : RecordSource)
    (reference : Reference) :
    let done := (history.call backend (.process source reference)).current.undone
    (history.indexer.Undocumentable source reference →
        done = history.current.undone ++ [reference]) ∧
      (¬ history.indexer.Undocumentable source reference → done = history.current.undone) := by
  rw [← decide_fail]
  cases decision : history.indexer.decide source reference with
  | error report => simp [call, Stretch.note, decision]
  | ok answer =>
    obtain ⟨action, limits⟩ := answer
    cases action <;> simp [call, Stretch.note, decision]

end History

/-! ### Every history -/

/-- Whatever the backend answers, what waits is within the limit, nothing is lost, doubled or cut
in two, and between two flushes no request could have carried the operation that comes next. -/
theorem requests_within_limit (backend : Backend σ) (index : String) (limit : Nat)
    (limits : Option Limits) (state : σ) (calls : List Call) :
    let largest := max limit 1
    let history := (History.start (new index limit limits) state).run backend calls
    let indexer := history.indexer
    (indexer, history.state) = run backend calls (new index limit limits, state) ∧
      indexer.pendingBytes = (indexer.pending.toList.map Operation.byteLength).sum ∧
      indexer.pendingBytes ≤ largest ∧
      indexer.phase = (if indexer.pending.isEmpty then .idle else .accumulating) ∧
      (∃ batches : List (List Operation), history.bodies = batches.map Operation.body ∧
        batches.flatten ++ indexer.pending.toList = history.added) ∧
      (∀ entry ∈ history.closed, ∃ batches, entry.1.Carried batches ∧
        batches.flatten = entry.1.added ∧ Cut largest batches) ∧
      ∃ batches, history.current.Carried batches ∧
        batches.flatten ++ indexer.pending.toList = history.current.added ∧
        Cut largest (batches ++ indexer.waiting) := by
  intro largest history indexer
  have sound : history.Sound backend largest := (History.Sound.new index limit limits state).run calls
  obtain ⟨batches, origin, sends, rests⟩ := sound.current
  obtain ⟨carried, -⟩ := sound.carried sends
  refine ⟨History.run_eq backend calls _, rests.bytes, rests.within, rests.phase, sound.conserves,
    ?_, batches, carried, sends.whole, rests.cut⟩
  intro entry member
  obtain ⟨batches, carried, whole, cut, -⟩ := sound.closed entry member
  exact ⟨batches, carried, whole, cut⟩

/-- Whatever the backend and the store answer, every failure is reported once: a flush returns the
references that failed since the flush before it. -/
theorem failures_reported (backend : Backend σ) (index : String) (limit : Nat)
    (limits : Option Limits) (state : σ) (calls : List Call) :
    let history := (History.start (new index limit limits) state).run backend calls
    let indexer := history.indexer
    let flushed := history.call backend .flush
    (indexer, history.state) = run backend calls (new index limit limits, state) ∧
      (∀ entry ∈ history.closed, ∃ batches, entry.1.Carried batches ∧
        batches.flatten = entry.1.added ∧
        ∀ reference, reference ∈ entry.2 ↔ entry.1.Failed batches reference) ∧
      (∃ batches, history.current.Carried batches ∧
        batches.flatten ++ indexer.pending.toList = history.current.added ∧
        ∀ reference, reference ∈ indexer.failures ↔
          (∃ entry ∈ history.closed, reference ∈ entry.2) ∨
            history.current.Failed batches reference) ∧
      flushed.closed.map Prod.snd =
        history.closed.map Prod.snd ++ [(indexer.flush backend history.state).1] ∧
      flushed.indexer.pending = #[] ∧
      flushed.call backend .flush = { flushed with closed := flushed.closed ++ [(.empty, [])] } ∧
      ∀ source reference,
        let processed := history.call backend (.process source reference)
        (∀ report, (indexer.process backend source reference history.state).1 = .error report →
          processed = history) ∧
        (indexer.Undocumentable source reference →
          processed.current.undone = history.current.undone ++ [reference]) ∧
        (¬ indexer.Undocumentable source reference →
          processed.current.undone = history.current.undone) := by
  intro history indexer flushed
  have sound : history.Sound backend (max limit 1) :=
    (History.Sound.new index limit limits state).run calls
  obtain ⟨batches, origin, sends, -⟩ := sound.current
  obtain ⟨carried, failures⟩ := sound.carried sends
  obtain ⟨nothing, idle⟩ := history.call_flush_flush backend
  refine ⟨History.run_eq backend calls _, ?_, ⟨batches, carried, sends.whole, failures⟩,
    history.closed_flush backend, nothing, idle, ?_⟩
  · intro entry member
    obtain ⟨batches, carried, whole, -, reported⟩ := sound.closed entry member
    exact ⟨batches, carried, whole, reported⟩
  · intro source reference
    exact ⟨fun report fails => History.call_process_error backend fails,
      history.undone_process backend source reference⟩

end Indexer

end SearchRelay
