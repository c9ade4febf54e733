import SearchRelay.Bulk.Response
import SearchRelay.Query.Answer
import SearchRelay.Query.Request

/-!
Backends: what the indexer writes to and searches read from. A backend is three functions on a
state of its own, so whatever is said about every backend holds for every behaviour a cluster may
show: answers, refusals and failures in any order.
-/

namespace SearchRelay

structure Backend (σ : Type) where
  /-- Sends the body of a bulk request. A failure means that there was no usable answer. -/
  bulk : String → σ → Outcome BulkResponse × σ
  search : SearchRequest → σ → Outcome SearchAnswer × σ
  count : SearchRequest → σ → Outcome Nat × σ

end SearchRelay
