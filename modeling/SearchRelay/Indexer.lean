import SearchRelay.Backend.Basic
import SearchRelay.Cache
import SearchRelay.Record.Store

/-!
The indexer: references in, a few bulk requests out. Operations wait until the next one would make
the request too large. An operation that is too large by itself is sent alone. Every reference that
fails is remembered, and reported by the next flush.
-/

namespace SearchRelay

/-- Which projects are allowed into the index, and the remembered answers to that question. -/
structure Limits where
  enabled : Nat → Bool
  cache : AnswerCache

namespace Limits

def key (project : Nat) : AnswerCache.Key := (Kind.project.documentType, project)

def ofPolicy (enabled : Nat → Bool) : Limits := ⟨enabled, .empty⟩

/-- Whether a record is allowed. A record without a project always is. -/
def allows (limits : Limits) (record : Record) : Bool × Limits :=
  match record.projectId with
  | none => (true, limits)
  | some project =>
    let fetched := limits.cache.fetch (key project) fun cache => (limits.enabled project, cache)
    (fetched.answer, { limits with cache := fetched.cache })

def projectChanged (limits : Limits) (project : Nat) : Limits :=
  { limits with cache := limits.cache.erase (key project) }

end Limits

/-- Puts type, number and project on a document that is an object and does not have them. -/
def stamp (document : Json) (reference : Reference) (record : Record) : Json :=
  let add (key : String) (value : Json) (document : Json) : Json :=
    if (document.get? key).isSome then document else document.set key value
  let document := add "id" (.ofNat reference.databaseId)
    (add "type" (.str reference.kind.documentType) document)
  match record.projectId with
  | some project => add "project_id" (.ofNat project) document
  | none => document

/-- The largest request, when nothing else is configured. -/
def defaultBulkLimit : Nat := 10 * 1024 * 1024

inductive Phase where
  | idle
  | accumulating
  /-- A request is under way. -/
  | flushing
deriving DecidableEq, Repr

structure Indexer where
  index : String
  /-- The largest request in bytes, at least one. -/
  limit : Nat
  limits : Option Limits
  pending : Array Operation
  pendingBytes : Nat
  /-- The references that failed since the last flush. -/
  unreported : Array Reference
  failures : Array Reference
  phase : Phase

namespace Indexer

def new (index : String) (limit : Nat) (limits : Option Limits) : Indexer :=
  ⟨index, max limit 1, limits, #[], 0, #[], #[], .idle⟩

inductive Decision where
  | perform (operation : Operation)
  /-- The reference fails without a request. -/
  | fail

/-- Decides about a record that was found, with the index that its document goes to. -/
def decideRecord (index : String) (reference : Reference) (record : Record) : Decision :=
  match record.content with
  | .document document => .perform ⟨index, reference, some (stamp document reference record)⟩
  | .excluded => .perform ⟨index, reference, none⟩
  | .refused _ => .fail

/-- Decides what to do about a reference. A record that is gone or not allowed is removed from the
index; an object of a repository is not for this way. Only a store that cannot answer is an error,
and then nothing changes. -/
def decide (indexer : Indexer) (source : RecordSource) (reference : Reference) :
    Outcome (Decision × Option Limits) :=
  if reference.kind.inRepository then .ok (.fail, indexer.limits)
  else
    match source reference.kind reference.databaseId with
    | .error report => .error <| report.within <| "💀 Record lookup for '" ++ reference.wire ++
        "' failed. The store is having a bad day."
    | .ok none => .ok (.perform ⟨indexer.index, reference, none⟩, indexer.limits)
    | .ok (some record) =>
      match indexer.limits with
      | none => .ok (decideRecord indexer.index reference record, none)
      | some limits =>
        let (allowed, limits) := limits.allows record
        if allowed then .ok (decideRecord indexer.index reference record, some limits)
        else .ok (.perform ⟨indexer.index, reference, none⟩, some limits)

/-- The references that failed when operations were answered: those of the failed items, or all of
them if there was no answer. A reference is named once. -/
def failedIn (operations : List Operation) (answer : Outcome BulkResponse) : List Reference :=
  match answer with
  | .ok response => (response.failedReferences operations).eraseDups
  | .error _ => (operations.map Operation.reference).eraseDups

/-- Sends everything that waits as one request. Gives the references that failed; nothing waits
afterwards, whatever the answer is. -/
def send (backend : Backend σ) (indexer : Indexer) (state : σ) : List Reference × Indexer × σ :=
  if indexer.pending.isEmpty then ([], { indexer with phase := .idle }, state)
  else
    let operations := indexer.pending.toList
    let indexer := { indexer with phase := .flushing, pending := #[], pendingBytes := 0 }
    let (answer, state) := backend.bulk (Operation.body operations) state
    let failed := failedIn operations answer
    (failed, { indexer with failures := indexer.failures ++ failed, phase := .idle }, state)

/-- Sends everything that waits; the next flush reports what failed. -/
def sendEarly (backend : Backend σ) (indexer : Indexer) (state : σ) : Indexer × σ :=
  let (failed, indexer, state) := indexer.send backend state
  ({ indexer with unreported := indexer.unreported ++ failed }, state)

/-- Adds an operation. The waiting ones are sent first if it would make the request too large, and
it is sent at once if it is too large by itself. -/
def submit (backend : Backend σ) (indexer : Indexer) (operation : Operation) (state : σ) :
    Indexer × σ :=
  let size := operation.byteLength
  let (indexer, state) :=
    if !indexer.pending.isEmpty && indexer.limit < indexer.pendingBytes + size then
      indexer.sendEarly backend state
    else (indexer, state)
  let indexer := { indexer with pending := indexer.pending.push operation,
                                pendingBytes := indexer.pendingBytes + size,
                                phase := .accumulating }
  if indexer.limit < indexer.pendingBytes then indexer.sendEarly backend state
  else (indexer, state)

/-- Remembers a reference that failed without a request. -/
def recordFailure (indexer : Indexer) (reference : Reference) : Indexer :=
  { indexer with unreported := indexer.unreported.push reference,
                 failures := indexer.failures.push reference }

def process (backend : Backend σ) (source : RecordSource) (indexer : Indexer)
    (reference : Reference) (state : σ) : Outcome Unit × Indexer × σ :=
  match indexer.decide source reference with
  | .error report => (.error report, indexer, state)
  | .ok (.fail, limits) =>
    (.ok (), ({ indexer with limits := limits }).recordFailure reference, state)
  | .ok (.perform operation, limits) =>
    let (indexer, state) := ({ indexer with limits := limits }).submit backend operation state
    (.ok (), indexer, state)

def flush (backend : Backend σ) (indexer : Indexer) (state : σ) : List Reference × Indexer × σ :=
  let (failed, indexer, state) := indexer.send backend state
  let earlier := indexer.unreported.toList
  (earlier ++ failed.filter (!earlier.contains ·), { indexer with unreported := #[] }, state)

end Indexer

end SearchRelay
