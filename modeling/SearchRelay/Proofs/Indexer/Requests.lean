import SearchRelay.Indexer
import SearchRelay.Proofs.Bulk.Delivery

/-!
The requests of an indexer, whatever its backend answers. Operations go out in the order in which
they came, each in one request, and a request is only sent early when the next operation does not
fit any more.
-/

namespace SearchRelay

variable {σ : Type} {backend : Backend σ}

namespace Backend

/-- The answers to requests that are sent one after the other, and what becomes of the backend. -/
def replay (backend : Backend σ) : List String → σ → List (Outcome BulkResponse) × σ
  | [], state => ([], state)
  | body :: rest, state =>
    let (answer, state) := backend.bulk body state
    let (answers, state) := replay backend rest state
    (answer :: answers, state)

theorem replay_append (before after : List String) (state : σ) :
    backend.replay (before ++ after) state =
      ((backend.replay before state).1 ++ (backend.replay after (backend.replay before state).2).1,
        (backend.replay after (backend.replay before state).2).2) := by
  induction before generalizing state with
  | nil => rfl
  | cons body before ih => simp only [List.cons_append, replay, ih]

theorem length_replay (bodies : List String) (state : σ) :
    (backend.replay bodies state).1.length = bodies.length := by
  induction bodies generalizing state with
  | nil => rfl
  | cons body bodies ih => simp only [replay, List.length_cons, ih]

end Backend

namespace Indexer

/-- The reference fails in a request for these operations: the answer names it, or there is none. -/
def FailsIn (operations : List Operation) (answer : Outcome BulkResponse) (reference : Reference) :
    Prop :=
  match answer with
  | .ok response => reference ∈ response.failedReferences operations
  | .error _ => ∃ operation ∈ operations, operation.reference = reference

theorem mem_failedIn {operations : List Operation} {answer : Outcome BulkResponse}
    {reference : Reference} :
    reference ∈ failedIn operations answer ↔ FailsIn operations answer reference := by
  cases answer with
  | ok response => rw [failedIn, FailsIn, List.mem_eraseDups]
  | error report => simp only [failedIn, FailsIn, List.mem_eraseDups, List.mem_map]

/-- The reference was lost before, or in one of the requests. -/
def Lost (known : List Reference) (batches : List (List Operation))
    (answers : List (Outcome BulkResponse)) (reference : Reference) : Prop :=
  reference ∈ known ∨ ∃ request ∈ batches.zip answers, FailsIn request.1 request.2 reference

/-! ### The parts of a call -/

/-- The request that would send what waits, if anything does. -/
def waiting (indexer : Indexer) : List (List Operation) :=
  if indexer.pending.isEmpty then [] else [indexer.pending.toList]

theorem waiting_of_empty {indexer : Indexer} (nothing : indexer.pending = #[]) :
    indexer.waiting = [] := by
  rw [waiting, nothing]
  rfl

theorem waiting_of_ne {indexer : Indexer} (something : indexer.pending ≠ #[]) :
    indexer.waiting = [indexer.pending.toList] := by
  rw [waiting, if_neg (mt Array.isEmpty_iff.1 something)]

theorem waiting_solid (indexer : Indexer) : ∀ batch ∈ indexer.waiting, batch ≠ [] := by
  by_cases nothing : indexer.pending = #[]
  · rw [waiting_of_empty nothing]
    exact List.forall_mem_nil _
  · rw [waiting_of_ne nothing, List.forall_mem_singleton]
    exact mt Array.toList_eq_nil_iff.1 nothing

theorem flatten_waiting (indexer : Indexer) : indexer.waiting.flatten = indexer.pending.toList := by
  by_cases nothing : indexer.pending = #[]
  · rw [waiting_of_empty nothing, nothing]
    rfl
  · rw [waiting_of_ne nothing, List.flatten_singleton]

def sent (indexer : Indexer) (failed : List Reference) : Indexer :=
  { indexer with
    pending := #[]
    pendingBytes := if indexer.pending.isEmpty then indexer.pendingBytes else 0
    failures := indexer.failures ++ failed
    phase := .idle }

theorem send_eq (backend : Backend σ) (indexer : Indexer) (state : σ) :
    let asked := backend.replay (indexer.waiting.map Operation.body) state
    ∃ failed, indexer.send backend state = (failed, indexer.sent failed, asked.2) ∧
      ∀ reference, reference ∈ failed ↔
        ∃ request ∈ indexer.waiting.zip asked.1, FailsIn request.1 request.2 reference := by
  by_cases nothing : indexer.pending.isEmpty
  · have empty := Array.isEmpty_iff.1 nothing
    refine ⟨[], ?_, ?_⟩
    · rw [send, if_pos nothing, waiting_of_empty empty, sent, if_pos nothing, ← empty]
      simp [Backend.replay]
    · intro reference
      simp [waiting_of_empty empty]
  · have something := mt Array.isEmpty_iff.2 nothing
    refine ⟨failedIn indexer.pending.toList
      (backend.bulk (Operation.body indexer.pending.toList) state).1, ?_, ?_⟩
    · rw [send, if_neg nothing, waiting_of_ne something, sent, if_neg nothing]
      rfl
    · intro reference
      simp [waiting_of_ne something, Backend.replay, mem_failedIn]

theorem sendEarly_eq (backend : Backend σ) (indexer : Indexer) (state : σ) :
    let asked := backend.replay (indexer.waiting.map Operation.body) state
    ∃ failed, indexer.sendEarly backend state =
        ({ indexer.sent failed with unreported := indexer.unreported ++ failed }, asked.2) ∧
      ∀ reference, reference ∈ failed ↔
        ∃ request ∈ indexer.waiting.zip asked.1, FailsIn request.1 request.2 reference := by
  obtain ⟨failed, sends, members⟩ := send_eq backend indexer state
  refine ⟨failed, ?_, members⟩
  rw [sendEarly, sends]
  rfl

def push (indexer : Indexer) (operation : Operation) : Indexer :=
  { indexer with
    pending := indexer.pending.push operation
    pendingBytes := indexer.pendingBytes + operation.byteLength
    phase := .accumulating }

/-- What a submission can do: room may have to be made for the operation, and it may have to go
out at once. -/
theorem submit_cases (backend : Backend σ) (indexer : Indexer) (operation : Operation) (state : σ) :
    ∃ held : Indexer × σ,
      (held = (indexer, state) ∧ (indexer.pending = #[] ∨
          indexer.pendingBytes + operation.byteLength ≤ indexer.limit) ∨
        held = indexer.sendEarly backend state ∧ indexer.pending ≠ #[] ∧
          indexer.limit < indexer.pendingBytes + operation.byteLength) ∧
      (indexer.submit backend operation state = (held.1.push operation, held.2) ∧
          (held.1.push operation).pendingBytes ≤ held.1.limit ∨
        indexer.submit backend operation state = (held.1.push operation).sendEarly backend held.2 ∧
          held.1.limit < (held.1.push operation).pendingBytes) := by
  have placed (held : Indexer × σ)
      (same : indexer.submit backend operation state =
        if held.1.limit < (held.1.push operation).pendingBytes then
          (held.1.push operation).sendEarly backend held.2
        else (held.1.push operation, held.2)) :
      indexer.submit backend operation state = (held.1.push operation, held.2) ∧
          (held.1.push operation).pendingBytes ≤ held.1.limit ∨
        indexer.submit backend operation state = (held.1.push operation).sendEarly backend held.2 ∧
          held.1.limit < (held.1.push operation).pendingBytes := by
    by_cases large : held.1.limit < (held.1.push operation).pendingBytes
    · exact Or.inr ⟨same.trans (if_pos large), large⟩
    · exact Or.inl ⟨same.trans (if_neg large), Nat.le_of_not_lt large⟩
  by_cases crowded :
      indexer.pending ≠ #[] ∧ indexer.limit < indexer.pendingBytes + operation.byteLength
  · refine ⟨indexer.sendEarly backend state, Or.inr ⟨rfl, crowded⟩, placed _ ?_⟩
    rw [submit]
    simp only [Bool.and_eq_true, Bool.not_eq_true', Array.isEmpty_eq_false_iff, decide_eq_true_eq,
      if_pos crowded]
    rfl
  · refine ⟨(indexer, state), Or.inl ⟨rfl, ?_⟩, placed _ ?_⟩
    · by_cases nothing : indexer.pending = #[]
      · exact Or.inl nothing
      · exact Or.inr (Nat.le_of_not_lt fun large => crowded ⟨nothing, large⟩)
    · rw [submit]
      simp only [Bool.and_eq_true, Bool.not_eq_true', Array.isEmpty_eq_false_iff,
        decide_eq_true_eq, if_neg crowded]
      rfl

/-- What early requests keep and a new operation changes, a submission changes in the same way. -/
theorem submit_keeps {operation : Operation} {before after : Indexer × σ → Prop}
    (early : ∀ now, before now → before (now.1.sendEarly backend now.2))
    (push : ∀ now, before now → after (now.1.push operation, now.2))
    (late : ∀ now, after now → after (now.1.sendEarly backend now.2))
    {now : Indexer × σ} (start : before now) :
    after (now.1.submit backend operation now.2) := by
  obtain ⟨held, room, placed⟩ := submit_cases backend now.1 operation now.2
  have made : before held := by
    rcases room with ⟨rfl, -⟩ | ⟨rfl, -⟩
    · exact start
    · exact early now start
  rcases placed with ⟨done, -⟩ | ⟨done, -⟩
  · exact done ▸ push held made
  · exact done ▸ late _ (push held made)

theorem sendEarly_settings (backend : Backend σ) (indexer : Indexer) (state : σ) :
    let after := (indexer.sendEarly backend state).1
    after.index = indexer.index ∧ after.limits = indexer.limits := by
  obtain ⟨failed, answer, -⟩ := sendEarly_eq backend indexer state
  rw [answer]
  exact ⟨rfl, rfl⟩

theorem submit_settings (backend : Backend σ) (indexer : Indexer) (operation : Operation)
    (state : σ) :
    let after := (indexer.submit backend operation state).1
    after.index = indexer.index ∧ after.limits = indexer.limits := by
  have early (now : Indexer × σ)
      (kept : now.1.index = indexer.index ∧ now.1.limits = indexer.limits) :
      (now.1.sendEarly backend now.2).1.index = indexer.index ∧
        (now.1.sendEarly backend now.2).1.limits = indexer.limits := by
    obtain ⟨index, limits⟩ := sendEarly_settings backend now.1 now.2
    exact ⟨index.trans kept.1, limits.trans kept.2⟩
  have push (now : Indexer × σ)
      (kept : now.1.index = indexer.index ∧ now.1.limits = indexer.limits) :
      (now.1.push operation, now.2).1.index = indexer.index ∧
        (now.1.push operation, now.2).1.limits = indexer.limits := kept
  have start : (indexer, state).1.index = indexer.index ∧
      (indexer, state).1.limits = indexer.limits := ⟨rfl, rfl⟩
  have done := submit_keeps early push early start
  exact done

theorem flush_settings (backend : Backend σ) (indexer : Indexer) (state : σ) :
    let after := (indexer.flush backend state).2.1
    after.index = indexer.index ∧ after.limits = indexer.limits := by
  obtain ⟨failed, answer, -⟩ := send_eq backend indexer state
  rw [flush, answer]
  exact ⟨rfl, rfl⟩

/-! ### Nothing is lost -/

/-- Since some moment the operations `added` came in. They went out in the requests `batches`, or
still wait, and the references that failed in these requests are to be reported. -/
structure Sends (backend : Backend σ) (origin : σ) (added : List Operation)
    (known : List Reference) (batches : List (List Operation)) (now : Indexer × σ) : Prop where
  whole : batches.flatten ++ now.1.pending.toList = added
  state : now.2 = (backend.replay (batches.map Operation.body) origin).2
  failed : ∀ reference, reference ∈ now.1.unreported ↔
    Lost known batches (backend.replay (batches.map Operation.body) origin).1 reference

variable {origin : σ} {added : List Operation} {known : List Reference}
  {batches : List (List Operation)} {now : Indexer × σ}

theorem Sends.start (indexer : Indexer) (origin : σ) :
    Sends backend origin indexer.pending.toList indexer.unreported.toList [] (indexer, origin) :=
  ⟨rfl, rfl, fun reference => by simp [Lost]⟩

theorem Sends.fresh {indexer : Indexer} (pending : indexer.pending = #[])
    (unreported : indexer.unreported = #[]) (origin : σ) :
    Sends backend origin [] [] [] (indexer, origin) := by
  have start : Sends backend origin _ _ [] (indexer, origin) := Sends.start indexer origin
  rwa [pending, unreported] at start

theorem Lost.append {known : List Reference} {before after : List (List Operation)}
    {early late : List (Outcome BulkResponse)} (same : before.length = early.length)
    {reference : Reference} :
    Lost known (before ++ after) (early ++ late) reference ↔
      Lost known before early reference ∨
        ∃ request ∈ after.zip late, FailsIn request.1 request.2 reference := by
  simp only [Lost, List.zip_append same, List.mem_append, or_and_right, exists_or, or_assoc]

theorem Sends.send (sends : Sends backend origin added known batches now) :
    let asked := backend.replay ((batches ++ now.1.waiting).map Operation.body) origin
    ∃ failed, now.1.send backend now.2 = (failed, now.1.sent failed, asked.2) ∧
      ∀ reference, reference ∈ now.1.unreported ∨ reference ∈ failed ↔
        Lost known (batches ++ now.1.waiting) asked.1 reference := by
  obtain ⟨failed, answer, members⟩ := send_eq backend now.1 now.2
  rw [sends.state] at answer members
  simp only [List.map_append, Backend.replay_append]
  refine ⟨failed, sends.state ▸ answer, ?_⟩
  intro reference
  rw [sends.failed, members, Lost.append]
  rw [Backend.length_replay, List.length_map]

theorem Sends.sendEarly (sends : Sends backend origin added known batches now) :
    Sends backend origin added known (batches ++ now.1.waiting)
      (now.1.sendEarly backend now.2) := by
  obtain ⟨failed, answer, members⟩ := sends.send
  rw [Indexer.sendEarly, answer]
  refine ⟨?_, rfl, ?_⟩
  · rw [List.flatten_append, flatten_waiting, ← sends.whole]
    exact List.append_nil _
  · intro reference
    rw [← members, ← Array.mem_toList_iff, ← Array.mem_toList_iff]
    simp only [sent, Array.toList_appendList, List.mem_append]

theorem Sends.push (sends : Sends backend origin added known batches now) (operation : Operation) :
    Sends backend origin (added ++ [operation]) known batches (now.1.push operation, now.2) := by
  refine ⟨?_, sends.state, sends.failed⟩
  rw [Indexer.push, Array.toList_push, ← List.append_assoc, sends.whole]

theorem Sends.relimit (sends : Sends backend origin added known batches now)
    (limits : Option Limits) :
    Sends backend origin added known batches ({ now.1 with limits := limits }, now.2) :=
  ⟨sends.whole, sends.state, sends.failed⟩

theorem Sends.recordFailure (sends : Sends backend origin added known batches now)
    (reference : Reference) :
    Sends backend origin added (known ++ [reference]) batches
      (now.1.recordFailure reference, now.2) := by
  refine ⟨sends.whole, sends.state, ?_⟩
  intro other
  have before := sends.failed other
  simp only [Indexer.recordFailure, Array.mem_push, before, Lost, List.mem_append,
    List.mem_singleton]
  exact or_right_comm

theorem Sends.flush (sends : Sends backend origin added known batches now) :
    let asked := backend.replay ((batches ++ now.1.waiting).map Operation.body) origin
    ∃ returned failed, now.1.flush backend now.2 =
        (returned, { now.1.sent failed with unreported := #[] }, asked.2) ∧
      (batches ++ now.1.waiting).flatten = added ∧
      (∀ reference, reference ∈ returned ↔ Lost known (batches ++ now.1.waiting) asked.1 reference) ∧
      ∀ reference, reference ∈ returned ↔
        reference ∈ now.1.unreported ∨ reference ∈ failed := by
  obtain ⟨failed, answer, members⟩ := sends.send
  have together (reference : Reference) :
      reference ∈ now.1.unreported.toList ++
          failed.filter (!now.1.unreported.toList.contains ·) ↔
        reference ∈ now.1.unreported ∨ reference ∈ failed := by
    simp only [List.mem_append, List.mem_filter, Bool.not_eq_true', Bool.eq_false_iff, ne_eq,
      List.contains_iff_mem, ← Array.mem_toList_iff]
    tauto
  refine ⟨_, failed, ?_, ?_, fun reference => (together reference).trans (members reference),
    together⟩
  · rw [Indexer.flush, answer]
    rfl
  · rw [List.flatten_append, flatten_waiting, sends.whole]

/-! ### Requests fit -/

/-- Requests keep to the limit, apart from single operations, and each of them is so full that the
first operation of the next one does not fit. -/
structure Cut (limit : Nat) (batches : List (List Operation)) : Prop where
  solid : ∀ batch ∈ batches, batch ≠ []
  small : ∀ batch ∈ batches,
    (Operation.body batch).utf8ByteSize ≤ limit ∨ ∃ operation, batch = [operation]
  greedy : batches.IsChain fun batch next => ∀ operation ∈ next.head?,
    limit < (Operation.body batch).utf8ByteSize + operation.byteLength

/-- Together with what waits, the requests so far are cut as they should be. If nothing waits, an
operation of the size `next` is too large for the last request. -/
structure Fits (largest next : Nat) (batches : List (List Operation)) (indexer : Indexer) : Prop where
  limit : indexer.limit = largest
  bytes : indexer.pendingBytes = Operation.totalLength indexer.pending.toList
  phase : indexer.phase = if indexer.pending.isEmpty then .idle else .accumulating
  cut : Cut largest (batches ++ indexer.waiting)
  full : indexer.pending = #[] → ∀ last ∈ batches.getLast?,
    largest < Operation.totalLength last + next

/-- Between two calls what waits is within the limit. -/
structure Rests (largest : Nat) (batches : List (List Operation)) (indexer : Indexer) : Prop
    extends Fits largest 0 batches indexer where
  within : indexer.pendingBytes ≤ largest

variable {limit next : Nat} {indexer : Indexer}

theorem Cut.nil (limit : Nat) : Cut limit [] := ⟨nofun, nofun, .nil⟩

theorem Rests.idle {largest : Nat} {indexer : Indexer} (limit : indexer.limit = largest)
    (pending : indexer.pending = #[]) (clear : indexer.pendingBytes = 0)
    (phase : indexer.phase = .idle) : Rests largest [] indexer := by
  refine ⟨⟨limit, ?_, ?_, ?_, ?_⟩, clear ▸ Nat.zero_le largest⟩
  · rw [clear, pending]
    rfl
  · rw [phase, pending]
    rfl
  · rw [waiting_of_empty pending]
    exact Cut.nil largest
  · intro _ last missing
    cases missing

theorem Rests.relimit {largest : Nat} {indexer : Indexer} (rests : Rests largest batches indexer)
    (limits : Option Limits) : Rests largest batches { indexer with limits := limits } :=
  ⟨⟨rests.limit, rests.bytes, rests.phase, rests.cut, rests.full⟩, rests.within⟩

theorem Cut.concat {batch : List Operation} (cut : Cut limit batches) (solid : batch ≠ [])
    (small : Operation.totalLength batch ≤ limit ∨ ∃ operation, batch = [operation])
    (full : ∀ last ∈ batches.getLast?, ∀ operation ∈ batch.head?,
      limit < Operation.totalLength last + operation.byteLength) :
    Cut limit (batches ++ [batch]) := by
  refine ⟨?_, ?_, ?_⟩
  · exact List.forall_mem_append.2 ⟨cut.solid, List.forall_mem_singleton.2 solid⟩
  · rw [← Operation.utf8ByteSize_body] at small
    exact List.forall_mem_append.2 ⟨cut.small, List.forall_mem_singleton.2 small⟩
  · refine cut.greedy.append (.singleton batch) ?_
    intro last inside other here
    obtain rfl : batch = other := by simpa using here
    rw [Operation.utf8ByteSize_body]
    exact full last inside

theorem Cut.init {batch : List Operation} (cut : Cut limit (batches ++ [batch])) :
    Cut limit batches ∧ ∀ last ∈ batches.getLast?, ∀ operation ∈ batch.head?,
      limit < Operation.totalLength last + operation.byteLength := by
  obtain ⟨chain, -, joint⟩ := List.isChain_append.1 cut.greedy
  refine ⟨⟨?_, ?_, chain⟩, ?_⟩
  · exact fun other inside => cut.solid other (List.mem_append_left _ inside)
  · exact fun other inside => cut.small other (List.mem_append_left _ inside)
  · intro last inside operation first
    have full := joint last inside batch rfl operation first
    rwa [Operation.utf8ByteSize_body] at full

theorem Fits.weaken (fits : Fits limit 0 batches indexer) (next : Nat) :
    Fits limit next batches indexer := by
  refine ⟨fits.limit, fits.bytes, fits.phase, fits.cut, ?_⟩
  intro nothing last inside
  exact Nat.lt_of_lt_of_le (fits.full nothing last inside) (Nat.le_add_right _ _)

theorem Fits.sendEarly {before : Nat} (fits : Fits limit before batches indexer)
    (backend : Backend σ) (state : σ) (something : indexer.pending ≠ #[])
    (full : limit < indexer.pendingBytes + next) :
    Fits limit next (batches ++ indexer.waiting) (indexer.sendEarly backend state).1 ∧
      (indexer.sendEarly backend state).1.pendingBytes = 0 := by
  obtain ⟨failed, answer, -⟩ := sendEarly_eq backend indexer state
  have clear : (indexer.sent failed).pendingBytes = 0 := by
    rw [sent, if_neg (mt Array.isEmpty_iff.1 something)]
  have nothing : ({ indexer.sent failed with
      unreported := indexer.unreported ++ failed } : Indexer).waiting = [] := waiting_of_empty rfl
  rw [answer]
  refine ⟨⟨fits.limit, clear, rfl, ?_, ?_⟩, clear⟩
  · rw [nothing, List.append_nil]
    exact fits.cut
  · intro _ last inside
    rw [waiting_of_ne something, List.getLast?_concat] at inside
    obtain rfl := Option.some.inj inside
    rwa [← fits.bytes]

theorem Fits.push {operation : Operation} (fits : Fits limit operation.byteLength batches indexer)
    (room : indexer.pending = #[] ∨ indexer.pendingBytes + operation.byteLength ≤ limit) :
    Fits limit 0 batches (indexer.push operation) := by
  have something : (indexer.push operation).pending ≠ #[] := Array.push_ne_empty
  refine ⟨fits.limit, ?_, ?_, ?_, fun nothing => absurd nothing something⟩
  · rw [Indexer.push, Array.toList_push, Operation.totalLength, List.map_append, List.sum_append]
    simp only [fits.bytes, Operation.totalLength, List.map_singleton, List.sum_singleton]
  · rw [if_neg (mt Array.isEmpty_iff.1 something)]
    rfl
  · rw [waiting_of_ne something, Indexer.push, Array.toList_push]
    have cut := fits.cut
    by_cases nothing : indexer.pending = #[]
    · rw [waiting_of_empty nothing, List.append_nil] at cut
      rw [nothing]
      refine cut.concat (List.cons_ne_nil _ _) (Or.inr ⟨operation, rfl⟩) ?_
      intro last inside first here
      obtain rfl := Option.some.inj here
      exact fits.full nothing last inside
    · rw [waiting_of_ne nothing] at cut
      obtain ⟨earlier, full⟩ := cut.init
      have solid : indexer.pending.toList ≠ [] := mt Array.toList_eq_nil_iff.1 nothing
      refine earlier.concat (by simp) (Or.inl ?_) ?_
      · have size := room.resolve_left nothing
        rw [fits.bytes] at size
        simpa [Operation.totalLength] using size
      · -- the operation joins the end of a request, whose first operation stays
        intro last inside first here
        rw [List.head?_append_of_ne_nil _ solid] at here
        exact full last inside first here

/-! ### A submission -/

/-- An operation that is submitted joins those that came in, and the requests that it makes the
indexer send are not empty, and cut as they should be. -/
theorem Sends.submit (sends : Sends backend origin added known batches now)
    (operation : Operation) :
    ∃ more, (∀ batch ∈ more, batch ≠ []) ∧
      Sends backend origin (added ++ [operation]) known (batches ++ more)
        (now.1.submit backend operation now.2) ∧
      ∀ limit, Rests limit batches now.1 →
        Rests limit (batches ++ more) (now.1.submit backend operation now.2).1 := by
  obtain ⟨held, room, placed⟩ := submit_cases backend now.1 operation now.2
  obtain ⟨early, solid, joined, fitted⟩ : ∃ early, (∀ batch ∈ early, batch ≠ []) ∧
      Sends backend origin added known (batches ++ early) held ∧
      ∀ limit, Rests limit batches now.1 →
        Fits limit 0 (batches ++ early) (held.1.push operation) := by
    rcases room with ⟨rfl, room⟩ | ⟨rfl, something, crowded⟩
    · refine ⟨[], List.forall_mem_nil _, ?_, fun limit rests => ?_⟩
      · rw [List.append_nil]
        exact sends
      · rw [List.append_nil]
        exact (rests.toFits.weaken _).push (rests.limit ▸ room)
    · refine ⟨now.1.waiting, now.1.waiting_solid, sends.sendEarly, fun limit rests => ?_⟩
      rw [rests.limit] at crowded
      obtain ⟨fits, clear⟩ := rests.toFits.sendEarly backend now.2 something crowded
      obtain ⟨failed, answer, -⟩ := sendEarly_eq backend now.1 now.2
      exact fits.push (Or.inl (by rw [answer]; rfl))
  have pushed := joined.push operation
  rcases placed with ⟨done, small⟩ | ⟨done, large⟩
  · refine ⟨early, solid, done ▸ pushed, fun limit rests => ?_⟩
    have fits := fitted limit rests
    rw [done]
    exact ⟨fits, fits.limit ▸ small⟩
  · refine ⟨early ++ (held.1.push operation).waiting, ?_, ?_, fun limit rests => ?_⟩
    · exact List.forall_mem_append.2 ⟨solid, waiting_solid _⟩
    · rw [done, ← List.append_assoc]
      exact pushed.sendEarly
    · have fits := fitted limit rests
      have limited : held.1.limit = limit := fits.limit
      have full : limit < (held.1.push operation).pendingBytes + 0 := limited ▸ large
      obtain ⟨after, clear⟩ := fits.sendEarly backend held.2 Array.push_ne_empty full
      rw [done, ← List.append_assoc]
      exact ⟨after, clear ▸ Nat.zero_le _⟩

end Indexer

end SearchRelay
