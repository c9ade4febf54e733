import SearchRelay.Pipeline
import SearchRelay.Proofs.Indexer.History
import SearchRelay.Proofs.Indexing.Lines

/-!
The order in which reader and worker take their steps does not show. At every moment the lines that
are taken, queued, held or unread make up the rest of the sequential run, so what the pipeline is
heading for never changes. Every step uses up some of the work that is left, and as long as the two
have not both ended one of them can take a step.
-/

namespace SearchRelay

variable {σ : Type}

/-! ### Reading -/

def Unread.dump (unread : Unread) : Dump :=
  Dump.readLines unread.whole unread.number [] unread.lines

theorem Dump.readLines_done (whole : Bool) (number : Nat) (done : List String)
    (lines : List Text.Bytes) :
    readLines whole number done lines =
      ⟨done.reverse ++ (readLines whole number [] lines).lines,
        (readLines whole number [] lines).unreadable⟩ := by
  induction lines generalizing number done with
  | nil => simp [readLines]
  | cons bytes lines ih =>
    cases decoded : Text.decode? bytes with
    | none => simp [readLines, decoded]
    | some text =>
      simp only [readLines, decoded]
      by_cases blank : (Text.trim text).isEmpty
      · simp only [blank, if_true]
        exact ih (number + 1) done
      · simp only [blank, Bool.false_eq_true, if_false]
        rw [ih (number + 1) (_ :: done), ih (number + 1) [_]]
        simp

namespace DumpReader

/-- The lines that the reader sends, unless they come back. -/
def lines : DumpReader → List String
  | .reading unread => unread.dump.lines
  | .sending line unread => line :: unread.dump.lines
  | .closed _ => []

/-- What the reader ends with, unless its lines come back. -/
def failure? (name : String) : DumpReader → Option Report
  | .reading unread | .sending _ unread => unread.dump.unreadable.map (Dump.unreadableAt name)
  | .closed failure => failure

theorem read_keeps (name : String) (unread : Unread) :
    (read name unread).lines = unread.dump.lines ∧
      (read name unread).failure? name = unread.dump.unreadable.map (Dump.unreadableAt name) := by
  obtain ⟨whole, number, lines⟩ := unread
  cases lines with
  | nil => cases whole <;> exact ⟨rfl, rfl⟩
  | cons bytes lines =>
    cases decoded : Text.decode? bytes with
    | none => simp [read, Unread.dump, Dump.readLines, DumpReader.lines, failure?, decoded]
    | some text =>
      by_cases blank : (Text.trim text).isEmpty
      · simp [read, Unread.dump, Dump.readLines, DumpReader.lines, failure?, decoded, blank]
      · simp only [read, Unread.dump, Dump.readLines, decoded, blank, Bool.false_eq_true, if_false]
        rw [Dump.readLines_done _ _ [_]]
        exact ⟨rfl, rfl⟩

theorem ofFile_keeps (file : File) :
    (ofFile file).lines = dumpLines (Dump.ofFile file) ∧
      (ofFile file).failure? file.name = dumpFailure? file.name (Dump.ofFile file) := by
  rw [ofFile, Dump.ofFile]
  cases file.content <;> exact ⟨rfl, rfl⟩

end DumpReader

/-! ### What a step keeps -/

namespace IndexingJob

variable {job : IndexingJob σ} {before after : Pipeline σ}

/-- What becomes of the worker when it has indexed the lines that are still to come. -/
def ahead (job : IndexingJob σ) (pipeline : Pipeline σ) :
    Outcome IndexingSummary × IndexingState σ :=
  let coming := pipeline.queue ++ pipeline.reader.lines
  match pipeline.worker with
  | .waiting state => indexLines job.backend job.source coming state
  | .indexing line state => indexLines job.backend job.source (line :: coming) state
  | .ended outcome state => (outcome, state)

/-- What the pipeline gives in the end, with the state that it leaves. -/
def verdict (job : IndexingJob σ) (pipeline : Pipeline σ) :
    Outcome IndexingSummary × IndexingState σ :=
  let ahead := job.ahead pipeline
  (concluded job.file.name (pipeline.reader.failure? job.file.name) ahead.1, ahead.2)

/-- The worker does not flush before the reader is done. -/
def Orderly (pipeline : Pipeline σ) : Prop :=
  ∀ summary state, pipeline.worker = .ended (.ok summary) state →
    ∃ failure, pipeline.reader = .closed failure

theorem indexLines_cons (backend : Backend σ) (source : RecordSource) (line : String)
    (lines : List String) (state : IndexingState σ) :
    indexLines backend source (line :: lines) state =
      match state.takeLine backend source line with
      | (.error report, after) => (.error (gaveUp report), after)
      | (.ok _, after) => indexLines backend source lines after := by
  rw [indexLines, IndexingState.takeLines]
  cases state.takeLine backend source line with
  | mk answer after => cases answer <;> rfl

theorem Step.orderly (step : job.Step before after) (orderly : Orderly before) : Orderly after := by
  cases step with
  | read =>
    intro summary state ended
    obtain ⟨failure, impossible⟩ := orderly summary state ended
    cases impossible
  | send room alive => exact fun summary state ended => absurd ended (alive _ _)
  | bounce => exact fun _ _ _ => ⟨none, rfl⟩
  | take | index | giveUp => exact fun _ _ impossible => by cases impossible
  | finish => exact fun _ _ _ => ⟨_, rfl⟩

/-- No step changes what the pipeline is heading for. -/
theorem Step.verdict (step : job.Step before after) (orderly : Orderly before) :
    job.verdict after = job.verdict before := by
  cases step with
  | read =>
    obtain ⟨lines, failure⟩ := DumpReader.read_keeps job.file.name ‹Unread›
    simp only [IndexingJob.verdict, ahead, lines, failure]
    rfl
  | send room alive =>
    simp only [IndexingJob.verdict, ahead, DumpReader.lines, DumpReader.failure?, List.append_assoc,
      List.singleton_append]
  | @bounce line unread queue outcome state =>
    -- the lines that come back are lost, but then the worker gave up before
    cases outcome with
    | error report => rfl
    | ok summary =>
      obtain ⟨failure, impossible⟩ := orderly summary state rfl
      cases impossible
  | take => rfl
  | index taken =>
    simp only [IndexingJob.verdict, ahead, indexLines_cons, taken]
  | giveUp failed =>
    simp only [IndexingJob.verdict, ahead, indexLines_cons, failed]
  | finish flushed =>
    simp only [IndexingJob.verdict, ahead, DumpReader.lines, List.append_nil, indexLines,
      IndexingState.takeLines, flushed]

/-! ### Runs -/

/-- The pipeline is there after some number of steps. -/
inductive Run (job : IndexingJob σ) (origin : Pipeline σ) : Nat → Pipeline σ → Prop where
  | start : Run job origin 0 origin
  | step {count before after} (run : Run job origin count before) (step : job.Step before after) :
    Run job origin (count + 1) after

variable {origin pipeline : Pipeline σ} {count : Nat}

theorem Run.room (run : job.Run origin count pipeline)
    (room : origin.queue.length ≤ job.capacity) : pipeline.queue.length ≤ job.capacity := by
  induction run with
  | start => exact room
  | step run step ih =>
    cases step with
    | send free alive => exact List.length_append ▸ free
    | take => exact (Nat.le_succ _).trans ih
    | read | bounce | index | giveUp | finish => exact ih

theorem Run.keeps (run : job.Run origin count pipeline) (orderly : Orderly origin) :
    Orderly pipeline ∧ job.verdict pipeline = job.verdict origin := by
  induction run with
  | start => exact ⟨orderly, rfl⟩
  | step run step ih =>
    obtain ⟨kept, same⟩ := ih
    exact ⟨step.orderly kept, (step.verdict kept).trans same⟩

theorem start_orderly (job : IndexingJob σ) (indexer : Indexer) (state : σ) :
    Orderly (job.start indexer state) := fun _ _ impossible => by cases impossible

theorem verdict_start (job : IndexingJob σ) (indexer : Indexer) (state : σ) :
    job.verdict (job.start indexer state) = indexDump job.backend job.source job.file.name
      (Dump.ofFile job.file) (.start indexer state) := by
  obtain ⟨lines, failure⟩ := DumpReader.ofFile_keeps job.file
  simp only [IndexingJob.verdict, ahead, start, lines, failure, List.nil_append]
  rfl

end IndexingJob

/-! ### The work that is left -/

/-- A line that is not read yet takes four steps: it is read, sent, taken and indexed. -/
def DumpReader.work : DumpReader → Nat
  | .reading unread => 4 * unread.lines.length + 1
  | .sending _ unread => 4 * unread.lines.length + 4
  | .closed _ => 0

def IndexingWorker.work : IndexingWorker σ → Nat
  | .waiting _ => 1
  | .indexing _ _ => 2
  | .ended _ _ => 0

def Pipeline.work (pipeline : Pipeline σ) : Nat :=
  pipeline.reader.work + 2 * pipeline.queue.length + pipeline.worker.work

theorem DumpReader.work_read (name : String) (unread : Unread) :
    (read name unread).work < (reading unread).work := by
  obtain ⟨whole, number, lines⟩ := unread
  cases lines with
  | nil => exact Nat.zero_lt_one
  | cons bytes lines =>
    cases decoded : Text.decode? bytes with
    | none => simp [read, decoded, work]
    | some text =>
      simp only [read, decoded]
      split <;> simp only [work, List.length_cons] <;> omega

namespace IndexingJob

variable {job : IndexingJob σ} {before after origin pipeline : Pipeline σ} {count : Nat}

theorem Step.work (step : job.Step before after) : after.work < before.work := by
  cases step with
  | @read unread =>
    have less := DumpReader.work_read job.file.name unread
    simp only [Pipeline.work]
    omega
  | send room alive =>
    simp only [Pipeline.work, DumpReader.work, List.length_append, List.length_singleton]
    omega
  | bounce =>
    simp only [Pipeline.work, DumpReader.work]
    omega
  | take =>
    simp only [Pipeline.work, IndexingWorker.work, List.length_cons]
    omega
  | index | giveUp | finish =>
    simp only [Pipeline.work, IndexingWorker.work]
    omega

theorem Run.work (run : job.Run origin count pipeline) : count + pipeline.work ≤ origin.work := by
  induction run with
  | start => exact (Nat.zero_add _).le
  | step run step ih =>
    have less := step.work
    omega

/-- As long as there is no result, reader or worker can take a step. -/
theorem progress (job : IndexingJob σ) (pipeline : Pipeline σ)
    (unfinished : pipeline.result? job.file.name = none) : ∃ next, job.Step pipeline next := by
  obtain ⟨reader, queue, worker⟩ := pipeline
  -- only a worker that waits for a line depends on the reader, and only while nothing is queued
  cases worker with
  | indexing line state =>
    cases taken : state.takeLine job.backend job.source line with
    | mk answer after =>
      cases answer with
      | ok => exact ⟨_, .index taken⟩
      | error report => exact ⟨_, .giveUp taken⟩
  | waiting state =>
    cases queue with
    | cons line queue => exact ⟨_, .take⟩
    | nil =>
      cases reader with
      | reading unread => exact ⟨_, .read⟩
      | sending line unread =>
        exact ⟨_, .send (Nat.le_max_right _ _) fun _ _ impossible => by cases impossible⟩
      | closed failure => exact ⟨_, .finish rfl⟩
  | ended outcome state =>
    cases reader with
    | reading unread => exact ⟨_, .read⟩
    | sending line unread => exact ⟨_, .bounce⟩
    | closed failure => cases unfinished

/-! ### Every schedule -/

theorem verdict_result {answer : Outcome IndexingSummary}
    (result : pipeline.result? job.file.name = some answer) :
    job.verdict pipeline = (answer, pipeline.worker.state) := by
  obtain ⟨reader, queue, worker⟩ := pipeline
  cases reader with
  | reading | sending => cases result
  | closed failure =>
    cases worker with
    | waiting | indexing => cases result
    | ended outcome state =>
      cases result
      rfl

/-- Whatever the file is, every schedule gives what indexing its lines one after the other gives. -/
theorem Run.result {indexer : Indexer} {state : σ} {answer : Outcome IndexingSummary}
    (run : job.Run (job.start indexer state) count pipeline)
    (result : pipeline.result? job.file.name = some answer) :
    (answer, pipeline.worker.state) = indexDump job.backend job.source job.file.name
      (Dump.ofFile job.file) (.start indexer state) := by
  rw [← verdict_result result, (run.keeps (job.start_orderly indexer state)).2, verdict_start]

/-- The same job, keeping the bulk requests with their answers. -/
def recording (job : IndexingJob σ) : IndexingJob (σ × List (String × Outcome BulkResponse)) :=
  ⟨job.backend.recording, job.source, job.file, job.queueCapacity⟩

/-- The summary says what became of the lines. `reached` is the indexer after some of them, and
`flushed` the one that it leaves in the end. -/
structure Summarizes (summary : IndexingSummary) (lines : List String)
    (reached : List String → Indexer) (flushed : Indexer) : Prop where
  processed : summary.processed = (lines.filter Reference.isWire).length
  invalid : summary.invalid = lines.filter fun line => !Reference.isWire line
  failed : summary.failed = flushed.failures.toList.eraseDups
  /-- References that failed in earlier lines come first. -/
  ordered : ∀ earlier, earlier <+: lines →
    (reached earlier).failures.toList.eraseDups <+: summary.failed

theorem finish_summarizes (backend : Backend σ) (source : RecordSource) (lines : List String)
    (indexer : Indexer) (state : σ) :
    let reached := fun lines =>
      Indexer.run backend (Indexer.calls source lines) (indexer, state)
    let done := Indexer.run backend (Indexer.calls source lines ++ [.flush]) (indexer, state)
    let finished := ((IndexingState.start indexer state).after backend source lines).finish backend
    finished.2.backend = done.2 ∧
      Summarizes finished.1 lines (fun lines => (reached lines).1) done.1 := by
  intro reached done finished
  have flushed : done = ((reached lines).1.flush backend (reached lines).2).2 :=
    Indexer.run_flush backend _ _
  refine ⟨by rw [flushed]; rfl, ?_, ?_, by rw [flushed]; rfl, ?_⟩
  · exact Nat.zero_add _
  · simp [finished, IndexingState.finish, IndexingState.after, IndexingState.start]
  · rintro earlier ⟨later, rfl⟩
    have grows : (reached earlier).1.failures.toList <+: done.1.failures.toList := by
      simp only [done, Indexer.calls_append, List.append_assoc, Indexer.run_append _ _ (_ ++ _)]
      exact Indexer.failures_run backend _ _
    obtain ⟨more, whole⟩ := grows
    have failed : finished.1.failed = done.1.failures.toList.eraseDups := by
      rw [flushed]
      rfl
    rw [failed, ← whole, List.eraseDups_append]
    exact List.prefix_append _ _

/-- How reader and worker take turns does not show. The queue keeps within its bound, no schedule is
stuck, and every schedule ends. If every record can be looked up, requests, backend and summary are
those of indexing the lines one after the other and flushing once; otherwise the result is an error,
and the requests are those of the lines before the first one that fails. -/
theorem schedule_independent (job : IndexingJob σ) (indexer : Indexer) (state : σ) :
    let logged := job.recording
    let origin := logged.start indexer (state, [])
    let reached := fun lines => Indexer.run logged.backend (Indexer.calls job.source lines)
      (indexer, (state, []))
    (∀ count pipeline, logged.Run origin count pipeline →
      count ≤ origin.work ∧ pipeline.queue.length ≤ max job.queueCapacity 1 ∧
      (pipeline.result? job.file.name = none → ∃ next, logged.Step pipeline next)) ∧
    ∀ count pipeline answer, logged.Run origin count pipeline →
      pipeline.result? job.file.name = some answer →
      ∀ lines, Dump.ofFile job.file = .ok ⟨lines, none⟩ →
        (lines.all job.source.answers →
          let done := Indexer.run logged.backend (Indexer.calls job.source lines ++ [.flush])
            (indexer, (state, []))
          pipeline.worker.state.backend = done.2 ∧ ∃ summary, answer = .ok summary ∧
            Summarizes summary lines (fun lines => (reached lines).1) done.1) ∧
        (lines.all job.source.answers = false →
          pipeline.worker.state.backend = (reached (lines.takeWhile job.source.answers)).2 ∧
            ∃ report, answer = .error report) := by
  intro logged origin reached
  constructor
  · intro count pipeline run
    exact ⟨(Nat.le_add_right _ _).trans run.work, run.room (Nat.zero_le _), logged.progress pipeline⟩
  · intro count pipeline answer run result lines readable
    have sequential := run.result result
    have readable : Dump.ofFile logged.file = .ok ⟨lines, none⟩ := readable
    obtain ⟨finishes, stops⟩ :=
      indexLines_eq logged.backend logged.source lines (.start indexer (state, []))
    simp only [indexDump, readable, dumpLines, dumpFailure?, Option.map_none] at sequential
    constructor
    · intro answered
      have whole : lines.takeWhile logged.source.answers = lines :=
        List.takeWhile_eq_self_iff.2 (List.all_eq_true.1 answered)
      rw [finishes answered, whole] at sequential
      obtain ⟨rfl, left⟩ := Prod.mk.inj sequential
      obtain ⟨backend, summarizes⟩ :=
        finish_summarizes logged.backend logged.source lines indexer (state, [])
      exact ⟨left ▸ backend, _, rfl, summarizes⟩
    · intro silent
      obtain ⟨report, stopped⟩ := stops silent
      rw [stopped] at sequential
      obtain ⟨rfl, left⟩ := Prod.mk.inj sequential
      exact ⟨left ▸ rfl, report, rfl⟩

example : Dump.ofFile (.of "refs" (some "Issue 1 issue_1\n\n nonsense\n".toUTF8.toList)) =
    .ok ⟨["Issue 1 issue_1", "nonsense"], none⟩ := by cbv

end IndexingJob

end SearchRelay
