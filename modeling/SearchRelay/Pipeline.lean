import SearchRelay.Indexing

/-!
The pipeline that indexes a dump. A reader sends the lines of the dump through a queue to a worker,
which indexes them. The two take their steps in any order. The reader has to wait while the queue is
full, and the worker while it is empty. When the reader is done, the worker empties the queue and
flushes; when the worker has given up, the next line of the reader comes back, and the reader stops.
-/

namespace SearchRelay

/-- What is left to read of a dump. -/
structure Unread where
  /-- Nothing is missing after the lines. -/
  whole : Bool
  /-- The number of the next line. -/
  number : Nat
  lines : List Text.Bytes

inductive DumpReader where
  | reading (unread : Unread)
  /-- The line is not in the queue yet. -/
  | sending (line : String) (unread : Unread)
  /-- Nothing more will be sent. The dump may not have been readable to its end. -/
  | closed (failure : Option Report)

namespace DumpReader

def ofFile (file : File) : DumpReader :=
  match file.content with
  | .bytes bytes =>
    let (content, whole) := Dump.unpack bytes
    .reading ⟨whole, 1, Dump.byteLines content whole⟩
  | .missing => .closed (some (Dump.unopened file.name))
  | .unreadable => .closed (some Dump.unpeeked)

/-- Reads the next line of the dump of a name. A blank one is passed over. -/
def read (name : String) (unread : Unread) : DumpReader :=
  match unread.lines with
  | [] => .closed (if unread.whole then none else some (Dump.unreadableAt name unread.number))
  | bytes :: rest =>
    match Text.decode? bytes with
    | none => .closed (some (Dump.unreadableAt name unread.number))
    | some text =>
      let line := Text.trim text
      let unread := ⟨unread.whole, unread.number + 1, rest⟩
      if line.isEmpty then .reading unread else .sending (String.ofList line) unread

end DumpReader

inductive IndexingWorker (σ : Type) where
  | waiting (state : IndexingState σ)
  | indexing (line : String) (state : IndexingState σ)
  | ended (outcome : Outcome IndexingSummary) (state : IndexingState σ)

/-- Where the worker has got to. -/
def IndexingWorker.state : IndexingWorker σ → IndexingState σ
  | .waiting state | .indexing _ state | .ended _ state => state

structure Pipeline (σ : Type) where
  reader : DumpReader
  /-- The lines that were sent and not taken yet, the oldest one first. -/
  queue : List String
  worker : IndexingWorker σ

namespace Pipeline

/-- What the pipeline gives for the dump of a name, once reader and worker have both ended. -/
def result? (name : String) (pipeline : Pipeline σ) : Option (Outcome IndexingSummary) :=
  match pipeline.reader, pipeline.worker with
  | .closed failure, .ended outcome _ => some (concluded name failure outcome)
  | _, _ => none

end Pipeline

structure IndexingJob (σ : Type) where
  backend : Backend σ
  source : RecordSource
  file : File
  queueCapacity : Nat

namespace IndexingJob

/-- The queue has room for a line at least. -/
def capacity (job : IndexingJob σ) : Nat := max job.queueCapacity 1

def start (job : IndexingJob σ) (indexer : Indexer) (state : σ) : Pipeline σ :=
  ⟨.ofFile job.file, [], .waiting (.start indexer state)⟩

/-- One step of the reader or of the worker. -/
inductive Step (job : IndexingJob σ) : Pipeline σ → Pipeline σ → Prop where
  | read {unread queue worker} :
    Step job ⟨.reading unread, queue, worker⟩ ⟨.read job.file.name unread, queue, worker⟩
  | send {line unread queue worker} (room : queue.length < job.capacity)
      (alive : ∀ outcome state, worker ≠ .ended outcome state) :
    Step job ⟨.sending line unread, queue, worker⟩ ⟨.reading unread, queue ++ [line], worker⟩
  | bounce {line unread queue outcome state} :
    Step job ⟨.sending line unread, queue, .ended outcome state⟩
      ⟨.closed none, queue, .ended outcome state⟩
  | take {reader line queue state} :
    Step job ⟨reader, line :: queue, .waiting state⟩ ⟨reader, queue, .indexing line state⟩
  | index {reader queue line state after}
      (taken : state.takeLine job.backend job.source line = (.ok (), after)) :
    Step job ⟨reader, queue, .indexing line state⟩ ⟨reader, queue, .waiting after⟩
  | giveUp {reader queue line state report after}
      (failed : state.takeLine job.backend job.source line = (.error report, after)) :
    Step job ⟨reader, queue, .indexing line state⟩
      ⟨reader, queue, .ended (.error (gaveUp report)) after⟩
  | finish {failure state summary after}
      (flushed : state.finish job.backend = (summary, after)) :
    Step job ⟨.closed failure, [], .waiting state⟩ ⟨.closed failure, [], .ended (.ok summary) after⟩

end IndexingJob

end SearchRelay
