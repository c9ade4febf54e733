import SearchRelay.Proofs.Bulk.Held
import SearchRelay.Proofs.Query.Order
import SearchRelay.Proofs.Sorting

/-!
The table behind a cluster, where documents stand in no order and each has the number of its first
insertion. Whatever the cluster goes through, its documents are those of the table by their
numbers, so what it finds does not depend on the order in which the table is read.
-/

namespace SearchRelay

def StoredDocument.key (document : StoredDocument) : String × String := (document.index, document.id)

structure Numbered where
  number : Nat
  document : StoredDocument

namespace Numbered

/-- An entry with a new document, if it has the key. -/
def updated (document : StoredDocument) (entry : Numbered) : Numbered :=
  if MemoryCluster.isAt document.index document.id entry.document then ⟨entry.number, document⟩
  else entry

def answers (request : SearchRequest) (entry : Numbered) : Bool :=
  entry.document.index == request.index && request.filter.accepts entry.document.source

def compare (sort : SortBy) (left right : Numbered) : Ordering :=
  sort.compare left.document.source right.document.source

/-- One entry is listed before another: by the sort, and by their numbers if it leaves them equal. -/
def Before (sort : Option SortBy) (left right : Numbered) : Prop :=
  match sort with
  | none => left.number < right.number
  | some sort =>
    left.compare sort right = .lt ∨ left.compare sort right = .eq ∧ left.number < right.number

end Numbered

structure Ledger where
  /-- The entries as they are read from the table. -/
  entries : List Numbered
  last : Nat

namespace Ledger

open MemoryCluster (isAt)

def empty : Ledger := ⟨[], 0⟩

/-- Puts a document in the place of the one with its key. A new key gets the next number. -/
def put (document : StoredDocument) (ledger : Ledger) : Ledger :=
  if ledger.entries.any fun entry => isAt document.index document.id entry.document then
    { ledger with entries := ledger.entries.map (Numbered.updated document) }
  else ⟨⟨ledger.last + 1, document⟩ :: ledger.entries, ledger.last + 1⟩

def erase (index id : String) (ledger : Ledger) : Ledger :=
  { ledger with entries := ledger.entries.filter fun entry => !isAt index id entry.document }

/-- Entries in the order of a sort, with those that it leaves equal as they were. -/
def sorted (sort : Option SortBy) (entries : List Numbered) : List Numbered :=
  match sort with
  | none => entries
  | some sort => entries.mergeSort fun left right => left.compare sort right != .gt

/-- What a request finds in a table whose entries are read in some order. -/
def matching (read : List Numbered) (request : SearchRequest) : List Numbered :=
  let found := read.filter (Numbered.answers request)
  sorted request.sort (found.mergeSort fun left right => left.number ≤ right.number)

end Ledger

/-! ### What a cluster goes through -/

inductive Edit where
  | put (document : StoredDocument)
  | erase (index id : String)

namespace Edit

def documents : Edit → List StoredDocument → List StoredDocument
  | .put document, documents => MemoryCluster.put document documents
  | .erase index id, documents =>
    documents.filter fun document => !MemoryCluster.isAt index id document

def ledger : Edit → Ledger → Ledger
  | .put document, ledger => ledger.put document
  | .erase index id, ledger => ledger.erase index id

/-- An edit of a document, unless its id is refused. -/
def accepted (rejected : List String) (id : String) (edit : Edit) : List Edit :=
  if rejected.contains id then [] else [edit]

/-- The edits that the lines of a bulk body ask for, up to the first bad line. -/
def ofLines (rejected : List String) : List (List Char) → List Edit
  | [] => []
  | action :: rest =>
    match MemoryCluster.readAction action with
    | .error _ => []
    | .ok (verb, metadata) =>
      let index := (MemoryCluster.member? metadata "_index").getD ""
      let id := (MemoryCluster.member? metadata "_id").getD ""
      if verb = "index" then
        match rest with
        | [] => []
        | line :: rest =>
          match Json.read? line with
          | none => []
          | some source =>
            accepted rejected id
              (.put ⟨index, id, MemoryCluster.member? metadata "routing", source⟩) ++
              ofLines rejected rest
      else if verb = "delete" then accepted rejected id (.erase index id) ++ ofLines rejected rest
      else []

end Edit

/-- A document is put into an index, a bulk body comes in, or the cluster is told how to behave. -/
inductive Change where
  | put (document : StoredDocument)
  | bulk (body : String)
  | behave (armed : Option String) (rejected : List String) (unavailable : Bool)

namespace Change

def cluster : Change → MemoryCluster → MemoryCluster
  | .put document, cluster => cluster.insert document
  | .bulk body, cluster => (cluster.bulk body).2
  | .behave armed rejected unavailable, cluster =>
    { cluster with armed := armed, rejected := rejected, unavailable := unavailable }

def edits : Change → MemoryCluster → List Edit
  | .put document, _ => [.put document]
  | .bulk body, cluster =>
    if cluster.unavailable || cluster.armed.isSome then []
    else Edit.ofLines cluster.rejected (MemoryCluster.bodyLines body)
  | .behave _ _ _, _ => []

/-- A cluster and its table after some changes. -/
def run : List Change → MemoryCluster × Ledger → MemoryCluster × Ledger
  | [], now => now
  | change :: rest, (cluster, ledger) =>
    run rest (change.cluster cluster,
      (change.edits cluster).foldl (fun ledger edit => edit.ledger ledger) ledger)

end Change

/-! ### The edits of a body -/

namespace MemoryCluster

variable {cluster : MemoryCluster}

def edited (cluster : MemoryCluster) (edits : List Edit) : MemoryCluster :=
  { cluster with documents := edits.foldl (fun documents edit => edit.documents documents) cluster.documents }

theorem edited_nil (cluster : MemoryCluster) : cluster.edited [] = cluster := rfl

theorem edited_append (first second : List Edit) :
    cluster.edited (first ++ second) = (cluster.edited first).edited second := by
  simp only [edited, List.foldl_append]

theorem applyIndex_edited (document : StoredDocument) : (cluster.applyIndex document).2 =
    cluster.edited (Edit.accepted cluster.rejected document.id (.put document)) := by
  unfold applyIndex Edit.accepted
  split
  next => rfl
  next => rfl

theorem applyDelete_edited (index id : String) : (cluster.applyDelete index id).2 =
    cluster.edited (Edit.accepted cluster.rejected id (.erase index id)) := by
  unfold applyDelete Edit.accepted
  split
  next => rfl
  next => rfl

theorem applyLines_edited (items : List (List (String × ItemResult))) (lines : List (List Char)) :
    (cluster.applyLines items lines).2 = cluster.edited (Edit.ofLines cluster.rejected lines) := by
  fun_induction applyLines cluster items lines with
  | case1 => rfl
  | case2 cluster items action rest report bad => simp only [Edit.ofLines, bad, edited_nil]
  | case3 cluster items action metadata id read => simp only [Edit.ofLines, read, if_true, edited_nil]
  | case4 cluster items action metadata id line rest bad read =>
    simp only [Edit.ofLines, read, bad, if_true, edited_nil]
  | case5 cluster items action metadata index id line rest source parsed item after applied read ih =>
    have step := cluster.applyIndex_edited ⟨index, id, member? metadata "routing", source⟩
    rw [applied] at step
    obtain rfl : after = cluster.edited _ := step
    simp only [Edit.ofLines, read, parsed, if_true, edited_append]
    exact ih
  | case6 cluster items action rest metadata index id item after applied read other ih =>
    have step := cluster.applyDelete_edited index id
    rw [applied] at step
    obtain rfl : after = cluster.edited _ := step
    simp only [Edit.ofLines, read, if_neg other, if_true, edited_append]
    exact ih
  | case7 cluster items action rest verb metadata read other unknown =>
    simp only [Edit.ofLines, read, if_neg other, if_neg unknown, edited_nil]

end MemoryCluster

theorem Change.documents_cluster (change : Change) (cluster : MemoryCluster) :
    (change.cluster cluster).documents = (cluster.edited (change.edits cluster)).documents := by
  cases change with
  | put document => rfl
  | behave armed rejected unavailable => rfl
  | bulk body =>
    unfold Change.cluster Change.edits MemoryCluster.bulk
    dsimp only
    by_cases away : cluster.unavailable
    · simp only [away, if_true, Bool.true_or, MemoryCluster.edited_nil]
    · cases armed : cluster.armed with
      | some reason => simp [away, MemoryCluster.edited_nil]
      | none =>
        simp only [away, Bool.false_eq_true, if_false, Option.isSome_none, Bool.or_false,
          MemoryCluster.applyLines_edited]
        rfl

/-! ### Keys -/

namespace MemoryCluster

variable {document : StoredDocument} {documents : List StoredDocument}

theorem isAt_iff_key {other : StoredDocument} :
    isAt document.index document.id other ↔ other.key = document.key := by
  rw [isAt_iff, StoredDocument.key, StoredDocument.key, Prod.mk.injEq]

/-- A document, or the one that takes its place. -/
def replaced (document other : StoredDocument) : StoredDocument :=
  if isAt document.index document.id other then document else other

theorem key_replaced (document other : StoredDocument) : (replaced document other).key = other.key := by
  unfold replaced
  split
  next here => exact (isAt_iff_key.1 here).symm
  next => rfl

theorem put_known (apart : (documents.map StoredDocument.key).Nodup)
    (known : document.key ∈ documents.map StoredDocument.key) :
    put document documents = documents.map (replaced document) := by
  fun_induction put document documents with
  | case1 => cases known
  | case2 first rest here =>
    have same := isAt_iff_key.1 here
    obtain ⟨alone, -⟩ := List.nodup_cons.1 apart
    have kept : ∀ other ∈ rest, replaced document other = other := by
      intro other inside
      apply if_neg
      intro there
      apply alone
      rw [same, ← isAt_iff_key.1 there]
      exact List.mem_map_of_mem inside
    rw [List.map_cons, replaced, if_pos here, List.map_congr_left kept, List.map_id']
  | case3 first rest foreign ih =>
    have later : document.key ∈ rest.map StoredDocument.key := by
      rcases List.mem_cons.1 known with first | later
      · exact absurd (isAt_iff_key.2 first.symm) foreign
      · exact later
    rw [ih (List.nodup_cons.1 apart).2 later, List.map_cons, replaced, if_neg foreign]

end MemoryCluster

/-! ### The table of a cluster -/

namespace Numbered

variable (document : StoredDocument) (entry : Numbered)

theorem number_updated : (entry.updated document).number = entry.number := by
  unfold updated
  split <;> rfl

theorem document_updated :
    (entry.updated document).document = MemoryCluster.replaced document entry.document := by
  unfold updated MemoryCluster.replaced
  split <;> rfl

instance (sort : SortBy) : Std.TransCmp (Numbered.compare sort) :=
  transCmp_on sort.compare fun entry : Numbered => entry.document.source

end Numbered

namespace Ledger

open MemoryCluster (isAt isAt_iff_key)

variable {ledger : Ledger} {documents : List StoredDocument}

/-- The documents are the entries by their numbers, and no key occurs twice. -/
structure Lists (ledger : Ledger) (documents : List StoredDocument) : Prop where
  ordered : ∃ ordered : List Numbered, ordered.Perm ledger.entries ∧
    ordered.map Numbered.document = documents ∧ ordered.Pairwise fun a b => a.number < b.number
  low : ∀ entry ∈ ledger.entries, entry.number ≤ ledger.last
  apart : (documents.map StoredDocument.key).Nodup

theorem Lists.any (lists : ledger.Lists documents) (document : StoredDocument) :
    (ledger.entries.any fun entry => isAt document.index document.id entry.document) ↔
      document.key ∈ documents.map StoredDocument.key := by
  obtain ⟨ordered, perm, rfl, -⟩ := lists.ordered
  rw [List.any_eq_true, List.map_map, (perm.map _).mem_iff, List.mem_map]
  simp only [isAt_iff_key, Function.comp_apply]

theorem lists_empty : empty.Lists [] := by
  constructor
  · exact ⟨[], List.Perm.refl [], rfl, List.Pairwise.nil⟩
  · exact nofun
  · exact List.nodup_nil

theorem Lists.put (lists : ledger.Lists documents) (document : StoredDocument) :
    (ledger.put document).Lists (MemoryCluster.put document documents) := by
  have any := lists.any document
  have apart := lists.apart
  obtain ⟨ordered, perm, rfl, rising⟩ := lists.ordered
  unfold Ledger.put
  split
  next known =>
    rw [MemoryCluster.put_known apart (any.1 known)]
    refine ⟨⟨ordered.map (.updated document), perm.map _, ?_, ?_⟩, ?_, ?_⟩
    · simp only [List.map_map, Function.comp_def, Numbered.document_updated]
    · exact List.pairwise_map.2 (by simpa only [Numbered.number_updated] using rising)
    · intro entry inside
      obtain ⟨before, member, rfl⟩ := List.mem_map.1 inside
      rw [Numbered.number_updated]
      exact lists.low before member
    · rw [List.map_map] at apart ⊢
      simpa only [List.map_map, Function.comp_def, MemoryCluster.key_replaced] using apart
  next unknown =>
    have fresh := mt any.2 unknown
    have new : ∀ other ∈ ordered.map Numbered.document, ¬ isAt document.index document.id other := by
      intro other inside here
      exact fresh (isAt_iff_key.1 here ▸ List.mem_map_of_mem inside)
    rw [MemoryCluster.put_new new]
    refine ⟨⟨ordered ++ [⟨ledger.last + 1, document⟩], ?_, by simp, ?_⟩, ?_, ?_⟩
    · exact (List.perm_append_singleton _ ordered).trans (perm.cons _)
    · apply List.pairwise_append.2 ⟨rising, List.pairwise_singleton _ _, ?_⟩
      intro entry inside last member
      obtain rfl := List.mem_singleton.1 member
      exact Nat.lt_succ_of_le (lists.low entry (perm.mem_iff.1 inside))
    · intro entry inside
      cases inside with
      | head => exact Nat.le_refl _
      | tail _ old => exact Nat.le_succ_of_le (lists.low entry old)
    · rw [List.map_append, List.map_singleton, ← List.concat_eq_append]
      exact apart.concat fresh

theorem Lists.erase (lists : ledger.Lists documents) (index id : String) :
    (ledger.erase index id).Lists
      (documents.filter fun document => !isAt index id document) := by
  have apart := lists.apart
  obtain ⟨ordered, perm, rfl, rising⟩ := lists.ordered
  refine ⟨⟨ordered.filter fun entry => !isAt index id entry.document, perm.filter _, ?_,
    rising.filter _⟩, ?_, ?_⟩
  · rw [List.filter_map]
    rfl
  · exact fun entry inside => lists.low entry (List.mem_of_mem_filter inside)
  · exact apart.sublist (List.filter_sublist.map _)

theorem Lists.edit (lists : ledger.Lists documents) (edit : Edit) :
    (edit.ledger ledger).Lists (edit.documents documents) := by
  cases edit with
  | put document => exact lists.put document
  | erase index id => exact lists.erase index id

theorem Lists.edits (lists : ledger.Lists documents) (edits : List Edit) :
    (edits.foldl (fun ledger edit => edit.ledger ledger) ledger).Lists
      (edits.foldl (fun documents edit => edit.documents documents) documents) := by
  induction edits generalizing ledger documents with
  | nil => exact lists
  | cons edit edits ih => exact ih (lists.edit edit)

theorem Lists.run {cluster : MemoryCluster} (lists : ledger.Lists cluster.documents)
    (changes : List Change) :
    (Change.run changes (cluster, ledger)).2.Lists
      (Change.run changes (cluster, ledger)).1.documents := by
  induction changes generalizing cluster ledger with
  | nil => exact lists
  | cons change rest ih =>
    apply ih
    rw [change.documents_cluster]
    exact lists.edits _

/-! ### What is found -/

theorem pairwise_sorted {sort : Option SortBy} {numbered : List Numbered}
    (rising : numbered.Pairwise fun a b => a.number < b.number) :
    (sorted sort numbered).Pairwise (Numbered.Before sort) := by
  cases sort with
  | none => exact rising
  | some sort => exact pairwise_mergeSort_stable rising

theorem map_sorted {cluster : MemoryCluster} {ordered : List Numbered}
    (same : ordered.map Numbered.document = cluster.documents) (request : SearchRequest) :
    (sorted request.sort (ordered.filter (Numbered.answers request))).map Numbered.document =
      cluster.matching request := by
  have found : (ordered.filter (Numbered.answers request)).map Numbered.document =
      cluster.documents.filter fun document =>
        document.index == request.index && request.filter.accepts document.source := by
    rw [← same, List.filter_map]
    rfl
  unfold sorted MemoryCluster.matching
  cases request.sort with
  | none => exact found
  | some sort =>
    dsimp only
    rw [← found]
    exact List.map_mergeSort fun _ _ _ _ => rfl

/-- However the table is read, a request finds the same: what the cluster finds. -/
theorem Lists.matching {cluster : MemoryCluster} (lists : ledger.Lists cluster.documents)
    (request : SearchRequest) :
    ∃ ranked : List Numbered,
      ranked.Pairwise (Numbered.Before request.sort) ∧
      (∀ read, read.Perm ledger.entries → Ledger.matching read request = ranked) ∧
      ranked.map Numbered.document = cluster.matching request := by
  obtain ⟨ordered, perm, same, rising⟩ := lists.ordered
  have kept : (ordered.filter (Numbered.answers request)).Pairwise fun a b => a.number < b.number :=
    rising.filter _
  refine ⟨sorted request.sort (ordered.filter (Numbered.answers request)), ?_, ?_, ?_⟩
  · exact pairwise_sorted kept
  · intro read seen
    rw [Ledger.matching, mergeSort_rising kept ((seen.trans perm.symm).filter _)]
  · exact map_sorted same request

end Ledger

end SearchRelay
