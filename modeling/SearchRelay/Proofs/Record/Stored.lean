import SearchRelay.Indexer
import SearchRelay.Proofs.Entries
import SearchRelay.Proofs.Reference.Wire
import SearchRelay.Query.Filter

/-!
From a record to the document that is stored for it. Records of one table have references that
lead to documents of their own, and the stamps on a document say what its record is, beside what
the document says itself.
-/

namespace SearchRelay

/-! ### Document ids -/

theorem Kind.documentType_injective {kind other : Kind}
    (same : kind.documentType = other.documentType) : kind = other := by
  cases kind <;> cases other <;> first | rfl | exact absurd same (by decide)

/-- The number is all the digits at the end. -/
theorem Kind.searchId_injective {kind other : Kind} {id number : Nat}
    (same : kind.searchId id = other.searchId number) : kind = other ∧ id = number := by
  have digits (n : Nat) (rest : List Char) :
      ((Text.decimal n).reverse ++ '_' :: rest).takeWhile Char.isDigit = (Text.decimal n).reverse :=
    Text.takeWhile_digits
      (fun c inside => Text.isDigit_of_mem_decimal (List.mem_reverse.1 inside)) (by decide) rest
  have backwards := congrArg List.reverse (String.ofList_injective same)
  simp only [List.reverse_append, List.reverse_cons, List.append_assoc, List.singleton_append]
    at backwards
  have ends := congrArg (List.takeWhile Char.isDigit) backwards
  rw [digits, digits, List.reverse_inj] at ends
  rw [ends, List.append_cancel_left_eq, List.cons.injEq, List.reverse_inj] at backwards
  exact ⟨documentType_injective (String.toList_injective backwards.2), Text.decimal_injective ends⟩

/-! ### Stamps -/

namespace Json

theorem get?_set (entries : List (String × Json)) (key other : String) (value : Json) :
    ((Json.obj entries).set key value).get? other =
      if key = other then some value else (Json.obj entries).get? other :=
  Entries.find?_insert key other value entries

/-- A path of one segment is a key. -/
theorem lookup_key (document : Json) {key : String} (plain : '.' ∉ key.toList) :
    document.lookup key = document.get? key := by
  have single : key.toList.splitOn '.' = [key.toList] := List.splitOn_eq_singleton plain
  rw [lookup, single, List.foldl_cons, List.foldl_nil, Option.bind_some, String.ofList_toList]

/-- The document is an object and says nothing about its type, number and project. -/
structure Unstamped (document : Json) : Prop where
  object : ∃ entries, document = .obj entries
  type : document.get? "type" = none
  id : document.get? "id" = none
  project : document.get? "project_id" = none

end Json

/-- What a stamped document says. -/
theorem get?_stamp {document : Json} (unstamped : document.Unstamped) (reference : Reference)
    (record : Record) (key : String) :
    (stamp document reference record).get? key =
      if key = "type" then some (.str reference.kind.documentType)
      else if key = "id" then some (.ofNat reference.databaseId)
      else if key = "project_id" then record.projectId.map .ofNat
      else document.get? key := by
  obtain ⟨⟨entries, rfl⟩, type, id, project⟩ := unstamped
  have insert (entries : List (String × Json)) (key other : String) (value : Json) :
      (Json.obj (Entries.insert key value entries)).get? other =
        if key = other then some value else (Json.obj entries).get? other :=
    Json.get?_set entries key other value
  have add {entries : List (String × Json)} {key : String} (absent : (Json.obj entries).get? key = none)
      (value : Json) :
      (if ((Json.obj entries).get? key).isSome then .obj entries else (Json.obj entries).set key value) =
        .obj (Entries.insert key value entries) := by
    rw [absent]
    rfl
  have noId (value : Json) : (Json.obj (Entries.insert "type" value entries)).get? "id" = none := by
    rw [insert, if_neg (by decide), id]
  have noProject (value other : Json) :
      (Json.obj (Entries.insert "id" value (Entries.insert "type" other entries))).get? "project_id" =
        none := by
    rw [insert, if_neg (by decide), insert, if_neg (by decide), project]
  unfold stamp
  dsimp only
  rw [add type, add (noId _)]
  cases record.projectId with
  | none =>
    dsimp only
    rw [insert, insert]
    grind
  | some number =>
    dsimp only
    rw [add (noProject _ _), insert, insert, insert]
    grind

/-! ### Lines of records -/

/-- A line whose record belongs in the index: it is of a kind that is kept in a table, its document
survives a text form, and its numbers have 64 bits. -/
structure RecordLine.Indexable (line : RecordLine) : Prop where
  registered : ∃ kind, Kind.ofClassName? line.className = some kind ∧ ¬ kind.inRepository
  kept : line.shouldDelete = false
  sound : line.failure = none
  portable : line.document.Portable
  unstamped : line.document.Unstamped
  number : line.id < 2 ^ 64
  project : ∀ project, line.projectId = some project → project < 2 ^ 64

namespace RecordLine

def kind (line : RecordLine) : Kind := (Kind.ofClassName? line.className).getD .project

def reference (line : RecordLine) : Reference :=
  ⟨line.kind, line.id, line.kind.searchId line.id, line.toRecord.routing⟩

/-- What a line is told apart by. -/
def key (line : RecordLine) : String × Nat := (line.className, line.id)

variable {line other : RecordLine}

theorem Indexable.known (indexable : line.Indexable) :
    Kind.ofClassName? line.className = some line.kind := by
  obtain ⟨kind, known, -⟩ := indexable.registered
  rw [RecordLine.kind, known, Option.getD_some]

theorem Indexable.kind_eq (indexable : line.Indexable) : line.toRecord.kind? = some line.kind :=
  indexable.known

theorem Indexable.outside (indexable : line.Indexable) : ¬ line.kind.inRepository := by
  obtain ⟨kind, known, outside⟩ := indexable.registered
  obtain rfl : kind = line.kind := Option.some.inj (known.symm.trans indexable.known)
  exact outside

theorem Indexable.content (indexable : line.Indexable) :
    line.toRecord.content = .document line.document := by
  simp [toRecord, indexable.sound, indexable.kept]

theorem Indexable.ofRecord (indexable : line.Indexable) :
    Reference.ofRecord line.toRecord = .ok line.reference := by
  simp only [Reference.ofRecord, Record.searchId, indexable.kind_eq]
  rfl

theorem Indexable.key_eq (indexable : line.Indexable) (same : other.Indexable)
    (kind : line.kind = other.kind) (id : line.id = other.id) : line.key = other.key := by
  have className : line.className = other.className := by
    rw [Kind.className_of_ofClassName? indexable.known, Kind.className_of_ofClassName? same.known, kind]
  rw [key, key, className, id]

/-- Lines that are told apart have documents of their own. -/
theorem Indexable.key_of_searchId (indexable : line.Indexable) (same : other.Indexable)
    (searchId : line.reference.searchId = other.reference.searchId) : line.key = other.key := by
  obtain ⟨kind, id⟩ := Kind.searchId_injective searchId
  exact indexable.key_eq same kind id

theorem references_of_lines {lines : List RecordLine} (indexable : ∀ line ∈ lines, line.Indexable) :
    (lines.mapM fun line => Reference.ofRecord line.toRecord) = .ok (lines.map reference) := by
  induction lines with
  | nil => rfl
  | cons line lines ih =>
    obtain ⟨first, others⟩ := List.forall_mem_cons.1 indexable
    rw [List.mapM_cons, first.ofRecord, ih others]
    rfl

end RecordLine

/-! ### Tables -/

namespace RecordTable

theorem find?_set (table : RecordTable) (kind other : Kind) (record : Record) (id : Nat) :
    (table.set kind record).find? other id =
      if (kind, record.id) = (other, id) then some record else table.find? other id := by
  simp only [find?, set, List.find?_cons, List.find?_filter]
  by_cases same : (kind, record.id) = (other, id)
  · simp [same]
  · rw [if_neg same, beq_false_of_ne same]
    dsimp only
    congr 2
    funext row
    by_cases here : row.1 = (other, id)
    · simp [here, Ne.symm same]
    · simp [here]

/-- A table that takes lines gives each of them back. -/
theorem insert_lines {lines : List RecordLine} (indexable : ∀ line ∈ lines, line.Indexable)
    (apart : (lines.map RecordLine.key).Nodup) (table : RecordTable) :
    ∃ after, lines.foldlM (fun table line => table.insert line.toRecord) table = Except.ok after ∧
      (∀ line ∈ lines, after.find? line.kind line.id = some line.toRecord) ∧
      ∀ kind id, (∀ line ∈ lines, (line.kind, line.id) ≠ (kind, id)) →
        after.find? kind id = table.find? kind id := by
  induction lines generalizing table with
  | nil => exact ⟨table, rfl, by simp, fun _ _ _ => rfl⟩
  | cons line lines ih =>
    obtain ⟨first, others⟩ := List.forall_mem_cons.1 indexable
    obtain ⟨new, apart⟩ := List.nodup_cons.1 apart
    obtain ⟨after, inserted, known, kept⟩ := ih others apart (table.set line.kind line.toRecord)
    have foreign : ∀ other ∈ lines, (other.kind, other.id) ≠ (line.kind, line.id) := by
      intro other inside same
      obtain ⟨kind, id⟩ := Prod.mk.inj same
      apply new
      rw [← (others other inside).key_eq first kind id]
      exact List.mem_map_of_mem inside
    have taken : table.insert line.toRecord = .ok (table.set line.kind line.toRecord) := by
      rw [insert, first.kind_eq]
    have found (kind : Kind) (id : Nat) : (table.set line.kind line.toRecord).find? kind id =
        if (line.kind, line.id) = (kind, id) then some line.toRecord else table.find? kind id :=
      find?_set table line.kind kind line.toRecord id
    refine ⟨after, ?_, ?_, ?_⟩
    · rw [List.foldlM_cons, taken]
      exact inserted
    · apply List.forall_mem_cons.2 ⟨?_, known⟩
      rw [kept _ _ foreign, found, if_pos rfl]
    · intro kind id elsewhere
      obtain ⟨here, rest⟩ := List.forall_mem_cons.1 elsewhere
      rw [kept kind id rest, found, if_neg here]

end RecordTable

end SearchRelay
