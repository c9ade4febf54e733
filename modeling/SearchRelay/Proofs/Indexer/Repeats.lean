import SearchRelay.Proofs.Indexer.History

/-!
How often a flush names a reference. Each request names a reference once, and what the request of
the flush itself adds is compared with the rest; but the failures without a request and those of
the early requests come one after the other as they are.
-/

namespace SearchRelay

namespace Indexer

variable {σ : Type} {backend : Backend σ}

/-! ### The failures of requests -/

instance (operations : List Operation) (answer : Outcome BulkResponse) (reference : Reference) :
    Decidable (FailsIn operations answer reference) :=
  decidable_of_iff _ mem_failedIn

/-- In how many of the requests the reference fails. -/
def failing (requests : List (List Operation × Outcome BulkResponse)) (reference : Reference) :
    Nat :=
  requests.countP fun request => FailsIn request.1 request.2 reference

theorem nodup_eraseDups (references : List Reference) : references.eraseDups.Nodup := by
  match references with
  | [] => exact List.nodup_nil
  | reference :: references =>
    rw [List.eraseDups_cons, List.nodup_cons]
    refine ⟨?_, nodup_eraseDups _⟩
    simp [List.mem_eraseDups]
termination_by references.length
decreasing_by exact Nat.lt_succ_of_le (List.length_filter_le _ _)

theorem count_failedIn (operations : List Operation) (answer : Outcome BulkResponse)
    (reference : Reference) :
    (failedIn operations answer).count reference =
      if FailsIn operations answer reference then 1 else 0 := by
  have nodup : (failedIn operations answer).Nodup := by
    cases answer <;> exact nodup_eraseDups _
  simp only [nodup.count, mem_failedIn]

theorem count_send (backend : Backend σ) (indexer : Indexer) (state : σ) (reference : Reference) :
    (indexer.send backend state).1.count reference =
      failing (indexer.waiting.zip (backend.replay (indexer.waiting.map Operation.body) state).1)
        reference := by
  by_cases nothing : indexer.pending.isEmpty
  · rw [send, if_pos nothing, waiting_of_empty (Array.isEmpty_iff.1 nothing)]
    rfl
  · rw [send, if_neg nothing, waiting_of_ne (mt Array.isEmpty_iff.2 nothing)]
    dsimp only
    rw [count_failedIn]
    simp [failing, Backend.replay, List.countP_cons]

theorem failing_waiting_le (indexer : Indexer) (answers : List (Outcome BulkResponse))
    (reference : Reference) : failing (indexer.waiting.zip answers) reference ≤ 1 := by
  refine List.countP_le_length.trans ?_
  rw [List.length_zip, waiting]
  split
  next => exact (Nat.min_le_left _ _).trans (Nat.zero_le 1)
  next => exact Nat.min_le_left _ _

theorem count_flush (backend : Backend σ) (indexer : Indexer) (state : σ) (reference : Reference) :
    (indexer.flush backend state).1.count reference =
      max (indexer.unreported.toList.count reference)
        (failing (indexer.waiting.zip
          (backend.replay (indexer.waiting.map Operation.body) state).1) reference) := by
  have once := failing_waiting_le indexer
    (backend.replay (indexer.waiting.map Operation.body) state).1 reference
  have last := count_send backend indexer state reference
  obtain ⟨failed, sends, -⟩ := send_eq backend indexer state
  rw [sends] at last
  rw [flush, sends, ← last]
  rw [← last] at once
  dsimp only [sent] at once ⊢
  rw [List.count_append]
  -- the request adds a reference only if it is not reported anyway, and then once
  by_cases earlier : reference ∈ indexer.unreported.toList
  · have known := List.count_pos_iff.2 earlier
    have dropped : (failed.filter (!indexer.unreported.toList.contains ·)).count reference = 0 :=
      List.count_eq_zero_of_not_mem (by simp [Array.mem_toList_iff.1 earlier])
    omega
  · have new : indexer.unreported.toList.count reference = 0 :=
      List.count_eq_zero_of_not_mem earlier
    rw [List.count_filter (by simp [earlier])]
    omega

/-! ### Stretches -/

/-- `Sends`, with how often each reference is to be reported. -/
structure Tallies (backend : Backend σ) (origin : σ) (added : List Operation)
    (known : List Reference) (batches : List (List Operation)) (now : Indexer × σ) : Prop
    extends Sends backend origin added known batches now where
  told : ∀ reference, now.1.unreported.toList.count reference = known.count reference +
    failing (batches.zip (backend.replay (batches.map Operation.body) origin).1) reference

variable {origin : σ} {added : List Operation} {known : List Reference}
  {batches : List (List Operation)} {now : Indexer × σ}

theorem Tallies.fresh {indexer : Indexer} (pending : indexer.pending = #[])
    (unreported : indexer.unreported = #[]) (origin : σ) :
    Tallies backend origin [] [] [] (indexer, origin) :=
  ⟨Sends.fresh pending unreported origin, fun reference => by rw [unreported]; rfl⟩

theorem Tallies.relimit (tallies : Tallies backend origin added known batches now)
    (limits : Option Limits) :
    Tallies backend origin added known batches ({ now.1 with limits := limits }, now.2) :=
  ⟨tallies.toSends.relimit limits, tallies.told⟩

theorem Tallies.push (tallies : Tallies backend origin added known batches now)
    (operation : Operation) :
    Tallies backend origin (added ++ [operation]) known batches (now.1.push operation, now.2) :=
  ⟨tallies.toSends.push operation, tallies.told⟩

theorem Tallies.recordFailure (tallies : Tallies backend origin added known batches now)
    (reference : Reference) :
    Tallies backend origin added (known ++ [reference]) batches
      (now.1.recordFailure reference, now.2) := by
  refine ⟨tallies.toSends.recordFailure reference, fun other => ?_⟩
  have before := tallies.told other
  rw [Indexer.recordFailure, Array.toList_push, List.count_append, List.count_append, before]
  exact Nat.add_right_comm _ _ _

theorem Tallies.sendEarly (tallies : Tallies backend origin added known batches now) :
    Tallies backend origin added known (batches ++ now.1.waiting)
      (now.1.sendEarly backend now.2) := by
  refine ⟨tallies.toSends.sendEarly, fun reference => ?_⟩
  have before := tallies.told reference
  have last := count_send backend now.1 now.2 reference
  obtain ⟨failed, sends, -⟩ := send_eq backend now.1 now.2
  rw [sends] at last
  rw [Indexer.sendEarly, sends]
  dsimp only [sent] at last ⊢
  have even : batches.length =
      (backend.replay (batches.map Operation.body) origin).1.length := by
    rw [Backend.length_replay, List.length_map]
  rw [Array.toList_appendList, List.count_append, before, last, tallies.state, List.map_append,
    Backend.replay_append, List.zip_append even, failing, failing, failing, List.countP_append,
    Nat.add_assoc]

theorem Tallies.submit (tallies : Tallies backend origin added known batches now)
    (operation : Operation) :
    ∃ batches, Tallies backend origin (added ++ [operation]) known batches
      (now.1.submit backend operation now.2) := by
  have early (added : List Operation) (now : Indexer × σ) :
      (∃ batches, Tallies backend origin added known batches now) →
        ∃ batches, Tallies backend origin added known batches (now.1.sendEarly backend now.2) :=
    fun ⟨_, tallies⟩ => ⟨_, tallies.sendEarly⟩
  have start : ∃ batches, Tallies backend origin added known batches now := ⟨batches, tallies⟩
  exact submit_keeps (early added) (fun _ ⟨_, tallies⟩ => ⟨_, tallies.push operation⟩)
    (early (added ++ [operation])) start

/-- How often the reference failed, in requests for these operations and without one. -/
def Stretch.times (stretch : Stretch) (batches : List (List Operation)) (reference : Reference) :
    Nat :=
  stretch.undone.count reference + failing (batches.zip (stretch.log.map Prod.snd)) reference

namespace History

variable {history : History σ}

/-- What is to be reported in a history, with how often. -/
def Tallied (backend : Backend σ) (history : History σ) : Prop :=
  ∃ batches origin, Tallies backend.recording (origin, []) history.current.added
    history.current.undone batches (history.indexer, history.state, history.current.log)

theorem Tallied.call (tallied : history.Tallied backend) (call : Call) :
    (history.call backend call).Tallied backend := by
  rcases history.call_cases backend call with
    same | ⟨limits, operation, submits⟩ | ⟨limits, reference, fails⟩ | rfl
  · exact same.symm ▸ tallied
  · obtain ⟨batches, origin, tallies⟩ := tallied
    obtain ⟨more, joined⟩ := (tallies.relimit limits).submit operation
    exact submits ▸ ⟨more, origin, joined⟩
  · obtain ⟨batches, origin, tallies⟩ := tallied
    exact fails ▸ ⟨batches, origin, (tallies.relimit limits).recordFailure reference⟩
  · obtain ⟨failed, sends, -⟩ := send_eq backend.recording history.indexer
      (history.state, history.current.log)
    simp only [History.call, Indexer.flush, sends]
    exact ⟨[], _, Tallies.fresh rfl rfl _⟩

theorem Tallied.run (tallied : history.Tallied backend) (calls : List Call) :
    (history.run backend calls).Tallied backend := by
  induction calls generalizing history with
  | nil => exact tallied
  | cons call calls ih => exact ih (tallied.call call)

/-- What waits to be reported is every failure of the stretch, as often as it came. -/
theorem Tallied.unreported (tallied : history.Tallied backend) :
    ∃ batches, history.current.Carried batches ∧
      batches.flatten ++ history.indexer.pending.toList = history.current.added ∧
      ∀ reference, history.indexer.unreported.toList.count reference =
        history.current.times batches reference := by
  obtain ⟨batches, origin, tallies⟩ := tallied
  obtain ⟨carried, answers⟩ := log_of_sends tallies.toSends
  refine ⟨batches, carried, tallies.whole, fun reference => ?_⟩
  rw [tallies.told, Stretch.times, answers]

end History

/-! ### Every flush -/

/-- A flush names a reference as often as it failed without a request and in the early requests,
and at least once if it fails in the request of the flush. So it names each failed reference once
just where, since the flush before, none of them failed twice ahead of that request. -/
theorem flush_names_once_iff (backend : Backend σ) (index : String) (limit : Nat)
    (limits : Option Limits) (state : σ) (calls : List Call) :
    let history := (History.start (new index limit limits) state).run backend calls
    let indexer := history.indexer
    let returned := (indexer.flush backend history.state).1
    let last := indexer.waiting.zip
      (backend.replay (indexer.waiting.map Operation.body) history.state).1
    (indexer, history.state) = run backend calls (new index limit limits, state) ∧
      ∃ batches, history.current.Carried batches ∧
        batches.flatten ++ indexer.pending.toList = history.current.added ∧
        (∀ reference, returned.count reference =
          max (history.current.times batches reference) (failing last reference)) ∧
        (∀ reference, failing last reference ≤ 1) ∧
        (returned.Nodup ↔ ∀ reference, history.current.times batches reference ≤ 1) := by
  intro history indexer returned last
  have start : (History.start (new index limit limits) state).Tallied backend :=
    ⟨[], state, Tallies.fresh rfl rfl _⟩
  obtain ⟨batches, carried, whole, told⟩ := (start.run calls).unreported
  have counted (reference : Reference) : returned.count reference =
      max (history.current.times batches reference) (failing last reference) := by
    rw [← told]
    exact count_flush backend indexer history.state reference
  have once := failing_waiting_le indexer
    (backend.replay (indexer.waiting.map Operation.body) history.state).1
  refine ⟨History.run_eq backend calls _, batches, carried, whole, counted, once, ?_⟩
  rw [List.nodup_iff_count_le_one]
  refine forall_congr' fun reference => ?_
  rw [counted, max_le_iff, and_iff_left (once reference)]

private def untitled : Reference := ⟨.issue, 1, "issue_1", some "project_7"⟩

private def visit : Call :=
  .process (fun _ _ => .ok (some ⟨"Issue", 1, some 7, .refused "no title"⟩)) untitled

/-- A record that cannot be turned into a document is processed twice, and named twice. -/
theorem refusal_named_twice :
    let done := run MemoryCluster.backend [visit, visit]
      (new "main" defaultBulkLimit none, MemoryCluster.empty)
    let returned := (done.1.flush MemoryCluster.backend done.2).1
    returned = [untitled, untitled] ∧ ¬ returned.Nodup := by
  intro done returned
  have twice : returned = [untitled, untitled] := rfl
  exact ⟨twice, by rw [twice]; decide⟩

end Indexer

end SearchRelay
