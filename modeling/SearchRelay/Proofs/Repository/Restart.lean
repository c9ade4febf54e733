import SearchRelay.Proofs.Json.Indented
import SearchRelay.Proofs.Repository.Status
import SearchRelay.Proofs.Sorting
import SearchRelay.Proofs.Text.Utf8
import SearchRelay.Proofs.Time.Instant

/-!
Statuses over a restart. A table keeps its statuses in the order of their projects, so recording
what a file lists builds the table that was written, and what was loaded once is written and loaded
again unchanged.
-/

namespace SearchRelay

namespace StatusTable

/-! ### The order of a table -/

def Sorted (statuses : List Status) : Prop :=
  statuses.Pairwise fun a b => a.projectId < b.projectId

theorem mem_of_mem_insert {status known : Status} {statuses : List Status}
    (inside : known ∈ insert status statuses) : known = status ∨ known ∈ statuses := by
  fun_induction insert status statuses with
  | case1 => exact Or.inl (List.mem_singleton.1 inside)
  | case2 first rest _ =>
    rcases List.mem_cons.1 inside with same | old
    · exact Or.inl same
    · exact Or.inr (List.mem_cons_of_mem _ old)
  | case3 => exact List.mem_cons.1 inside
  | case4 first rest _ _ ih =>
    rcases List.mem_cons.1 inside with same | later
    · exact Or.inr (same ▸ List.mem_cons_self)
    · exact (ih later).imp_right (List.mem_cons_of_mem _)

theorem sorted_insert (status : Status) {statuses : List Status} (sorted : Sorted statuses) :
    Sorted (insert status statuses) := by
  fun_induction insert status statuses with
  | case1 => exact List.pairwise_singleton _ _
  | case2 first rest same =>
    obtain ⟨before, ordered⟩ := List.pairwise_cons.1 sorted
    exact List.pairwise_cons.2 ⟨fun other inside => same ▸ before other inside, ordered⟩
  | case3 first rest _ less =>
    obtain ⟨before, _⟩ := List.pairwise_cons.1 sorted
    refine List.pairwise_cons.2 ⟨?_, sorted⟩
    intro other inside
    rcases List.mem_cons.1 inside with rfl | later
    · exact less
    · exact less.trans (before other later)
  | case4 first rest different notLess ih =>
    obtain ⟨before, ordered⟩ := List.pairwise_cons.1 sorted
    refine List.pairwise_cons.2 ⟨?_, ih ordered⟩
    intro other inside
    rcases mem_of_mem_insert inside with rfl | old
    · omega
    · exact before other old

theorem insert_last {status : Status} {statuses : List Status}
    (behind : ∀ known ∈ statuses, known.projectId < status.projectId) :
    insert status statuses = statuses ++ [status] := by
  fun_induction insert status statuses with
  | case1 => rfl
  | case2 first rest same =>
    have less := behind first List.mem_cons_self
    omega
  | case3 first rest _ _ =>
    have less := behind first List.mem_cons_self
    omega
  | case4 first rest _ _ ih =>
    rw [ih fun known inside => behind known (List.mem_cons_of_mem _ inside), List.cons_append]

/-- Recording statuses in the order of their projects lists them as they are. -/
theorem foldl_record_sorted {statuses : List Status} (sorted : Sorted statuses) :
    statuses.foldl record empty = ⟨statuses⟩ := by
  induction statuses using List.reverseRecOn with
  | nil => rfl
  | append_singleton earlier status ih =>
    obtain ⟨ordered, _, behind⟩ := List.pairwise_append.1 sorted
    rw [List.foldl_append, ih ordered]
    have last := insert_last fun known inside => behind known inside status List.mem_cons_self
    exact congrArg StatusTable.mk last

/-- Of several statuses of one project the last one counts. -/
theorem find?_foldl_record (statuses : List Status) (project : Nat) :
    (statuses.foldl record empty).find? project =
      (statuses.filter fun status => status.projectId == project).getLast? := by
  induction statuses using List.reverseRecOn with
  | nil => rfl
  | append_singleton earlier status ih =>
    rw [List.foldl_append, List.foldl_cons, List.foldl_nil, List.filter_append]
    by_cases same : project = status.projectId
    · subst same
      rw [find?_record]
      simp
    · have other : (status.projectId == project) = false := beq_false_of_ne (Ne.symm same)
      rw [find?_record_other _ _ same, ih, List.filter_cons_of_neg (by simp [other]),
        List.filter_nil, List.append_nil]

/-! ### The file -/

/-- The file that holds the statuses of a table, however they are found in it. -/
def saved (name : String) (listed : List Status) : File :=
  let table : StatusTable := ⟨listed.mergeSort fun a b => a.projectId ≤ b.projectId⟩
  File.of name (some (Text.encode table.text.toList))

/-- A status that a file can hold: the number of its project fits 64 bits, and its time is one
that is read back. -/
structure Storable (status : Status) : Prop where
  word : status.projectId ≤ Text.maxWord
  ordinary : status.indexedAt.Ordinary

theorem whole_statusJson {status : Status} (storable : Storable status) : (statusJson status).Whole := by
  have small := storable.word
  have number : (Json.ofNat status.projectId).Whole := by
    rw [Text.maxWord, Nat.pow_eq] at small
    simp only [Json.ofNat, Json.Whole]
    omega
  exact ⟨number, trivial, trivial, trivial⟩

theorem statusDecoder_tree {status : Status} (storable : Storable status) (depth : Nat) :
    statusDecoder (depth + 1) (statusJson status).tree = some status := by
  have number := Json.Decoder.word_tree storable.word depth
  have time : timeDecoder depth (.string (some (String.ofList status.indexedAt.zuluText))) =
      some status.indexedAt := by
    rw [timeDecoder, Json.Decoder.string, Option.bind_some, String.toList_ofList,
      Instant.parse?_zuluText storable.ordinary]
  have tree : (statusJson status).tree = .object
      [(some "project_id", (Json.ofNat status.projectId).tree),
        (some "last_commit", .string (some status.lastCommit)),
        (some "indexed_at", .string (some (String.ofList status.indexedAt.zuluText)))] := rfl
  have known (first second third : Json.Tree) :
      Json.knownEntries ["project_id", "last_commit", "indexed_at"] []
        [(some "project_id", first), (some "last_commit", second), (some "indexed_at", third)] =
      some [("indexed_at", third), ("last_commit", second), ("project_id", first)] := rfl
  have text : Json.Decoder.string depth (.string (some status.lastCommit)) =
    some status.lastCommit := rfl
  rw [tree, statusDecoder, Json.Decoder.record, Json.Decoder.object, known, Option.bind_some]
  · simp [Json.Members.required, Json.Members.get?, number, time, text]
  · exact fun _ _ _ same => nomatch same

theorem word_statusDecoder {depth : Nat} {tree : Json.Tree} {status : Status}
    (read : statusDecoder depth tree = some status) : status.projectId ≤ Text.maxWord := by
  have built (members : Json.Members) (made : (do
      let projectId ← members.required "project_id" .word
      let lastCommit ← members.required "last_commit" .string
      let indexedAt ← members.required "indexed_at" timeDecoder
      return (⟨projectId, lastCommit, indexedAt⟩ : Status)) = some status) :
      status.projectId ≤ Text.maxWord := by
    obtain ⟨projectId, number, made⟩ := Option.bind_eq_some_iff.1 made
    obtain ⟨lastCommit, -, made⟩ := Option.bind_eq_some_iff.1 made
    obtain ⟨indexedAt, -, made⟩ := Option.bind_eq_some_iff.1 made
    obtain ⟨tree, -, word⟩ := Option.bind_eq_some_iff.1 number
    obtain rfl := Option.some.inj made
    exact Json.Decoder.word_le word
  unfold statusDecoder Json.Decoder.record at read
  split at read
  · split at read
    · exact built _ read
    · cases read
  · unfold Json.Decoder.object at read
    split at read
    · obtain ⟨found, -, made⟩ := Option.bind_eq_some_iff.1 read
      exact built _ made
    · cases read

theorem tree_statuses {statuses : List Status} (storable : ∀ status ∈ statuses, Storable status)
    (depth : Nat) :
    (Json.treeItems (statuses.map statusJson)).map (statusDecoder (depth + 1)) = statuses.map some := by
  induction statuses with
  | nil => rfl
  | cons status statuses ih =>
    obtain ⟨first, others⟩ := List.forall_mem_cons.1 storable
    rw [List.map_cons, Json.treeItems, List.map_cons, statusDecoder_tree first, ih others,
      List.map_cons]

theorem whole_statuses {statuses : List Status} (storable : ∀ status ∈ statuses, Storable status) :
    Json.WholeItems (statuses.map statusJson) := by
  induction statuses with
  | nil => trivial
  | cons status statuses ih =>
    obtain ⟨first, others⟩ := List.forall_mem_cons.1 storable
    exact ⟨whole_statusJson first, ih others⟩

theorem ofText?_text {table : StatusTable} (sorted : Sorted table.statuses)
    (storable : ∀ status ∈ table.statuses, Storable status) :
    ofText? table.text.toList = some table := by
  have tree : Json.Tree.ofText? table.text.toList =
      some (.array (Json.treeItems (table.statuses.map statusJson))) := by
    rw [text, String.toList_ofList]
    exact Json.ofText?_indented (whole_statuses storable)
  have decoded := tree_statuses storable 125
  rw [ofText?, Json.decode?, tree, Option.bind_some, Json.maxDepth, Json.Decoder.list, decoded,
    Json.allSome_map_some, Option.map_some, foldl_record_sorted sorted]

/-- What was saved is loaded. -/
theorem ofFile_saved {table : StatusTable} (sorted : Sorted table.statuses)
    (storable : ∀ status ∈ table.statuses, Storable status) {listed : List Status}
    (perm : listed.Perm table.statuses) (name : String) : ofFile (saved name listed) = .ok table := by
  rw [saved, mergeSort_rising sorted perm]
  dsimp only [File.of, ofFile]
  rw [Text.decodeDocument_encode, load, ofText?_text sorted storable]

theorem word_of_decode? {text : List Char} {written : List Status}
    (decoded : Json.decode? (.list statusDecoder) text = some written) (status : Status)
    (inside : status ∈ written) : status.projectId ≤ Text.maxWord := by
  obtain ⟨tree, -, listed⟩ := Option.bind_eq_some_iff.1 decoded
  unfold Json.Decoder.list at listed
  split at listed
  next depth items _ =>
    have member : some status ∈ items.map (statusDecoder depth) := by
      rw [Json.allSome_eq_some listed]
      exact List.mem_map_of_mem inside
    obtain ⟨item, -, read⟩ := List.mem_map.1 member
    exact word_statusDecoder read
  next => cases listed

theorem written_of_ofFile {name : String} {bytes : Text.Bytes} {table : StatusTable}
    (loaded : ofFile ⟨name, .bytes bytes⟩ = .ok table) :
    ∃ written, Json.decode? (.list statusDecoder) (Text.decodeDocument bytes) = some written ∧
      written.foldl record empty = table := by
  dsimp only [ofFile, load] at loaded
  split at loaded
  next read =>
    obtain rfl := Except.ok.inj loaded
    exact Option.map_eq_some_iff.1 read
  next => cases loaded

/-! ### The store -/

end StatusTable

/-- What happens to a store of statuses. -/
inductive StatusChange where
  | record (status : Status)
  | remove (project : Nat)

namespace StatusTable

def change (table : StatusTable) : StatusChange → StatusTable
  | .record status => table.record status
  | .remove project => (table.remove project).1

/-- The store after some changes, beginning with an empty one. -/
def after (changes : List StatusChange) : StatusTable := changes.foldl change empty

theorem sorted_after (changes : List StatusChange) : Sorted (after changes).statuses := by
  induction changes using List.reverseRecOn with
  | nil => exact List.Pairwise.nil
  | append_singleton earlier change ih =>
    rw [after, List.foldl_append]
    cases change with
    | record status => exact sorted_insert status ih
    | remove project => exact ih.filter _

theorem mem_after {changes : List StatusChange} {status : Status}
    (inside : status ∈ (after changes).statuses) : .record status ∈ changes := by
  induction changes using List.reverseRecOn with
  | nil => cases inside
  | append_singleton earlier change ih =>
    rw [after, List.foldl_append] at inside
    cases change with
    | record known =>
      rcases mem_of_mem_insert inside with rfl | old
      · exact List.mem_append_right _ List.mem_cons_self
      · exact List.mem_append_left _ (ih old)
    | remove project => exact List.mem_append_left _ (ih (List.mem_filter.1 inside).1)

theorem foldl_record (statuses : List Status) :
    statuses.foldl record empty = after (statuses.map .record) := by
  rw [after, List.foldl_map]
  rfl

/-- A store is what it was after its statuses were saved and loaded again, in whatever order it
lists them, and so is a store that was loaded from any file. -/
theorem survives_restart (name : String) :
    (∀ changes : List StatusChange,
      (∀ status, .record status ∈ changes → Storable status) →
      ∀ listed : List Status, listed.Perm (after changes).statuses →
        ∃ loaded, ofFile (saved name listed) = .ok loaded ∧
          loaded.statuses = (after changes).statuses ∧
          ∀ isAncestor project head,
            Plan.decide (loaded.find? project) isAncestor head =
              Plan.decide ((after changes).find? project) isAncestor head) ∧
    ∀ bytes table, ofFile ⟨name, .bytes bytes⟩ = .ok table →
      (∀ status ∈ table.statuses, status.indexedAt.Ordinary) →
      (∀ listed : List Status, listed.Perm table.statuses →
        ofFile (saved name listed) = .ok table) ∧
      ∃ written, Json.decode? (.list statusDecoder) (Text.decodeDocument bytes) = some written ∧
        ∀ project, table.find? project =
          (written.filter fun status => status.projectId == project).getLast? := by
  constructor
  · intro changes storable listed perm
    have kept : ∀ status ∈ (after changes).statuses, Storable status :=
      fun status inside => storable status (mem_after inside)
    exact ⟨after changes, ofFile_saved (sorted_after changes) kept perm name, rfl, fun _ _ _ => rfl⟩
  · intro bytes table loaded ordinary
    obtain ⟨written, decoded, rfl⟩ := written_of_ofFile loaded
    refine ⟨?_, written, decoded, find?_foldl_record written⟩
    have sorted : Sorted (written.foldl record empty).statuses := by
      rw [foldl_record]
      exact sorted_after _
    have kept : ∀ status ∈ (written.foldl record empty).statuses, Storable status := by
      intro status inside
      refine ⟨?_, ordinary status inside⟩
      rw [foldl_record] at inside
      obtain ⟨known, member, same⟩ := List.mem_map.1 (mem_after inside)
      obtain rfl : known = status := StatusChange.record.inj same
      exact word_of_decode? decoded known member
    intro listed perm
    exact ofFile_saved sorted kept perm name

/-- A project that is forgotten and indexed again on a leap day, and another one that was indexed
when the year zero began. -/
def forgetful : List StatusChange :=
  [.record ⟨7, "a", ⟨0, 0⟩⟩, .remove 7, .record ⟨7, "\"ü", ⟨1709208000, 500000000⟩⟩,
    .record ⟨3, "b", ⟨-62167219200, 1⟩⟩]

/-- The store of `forgetful`, listed backwards, and the store of a file that lists a project twice
and gives the time in another zone. -/
theorem survives_restart_forgetful :
    (∃ loaded, ofFile (saved "statuses.json" (after forgetful).statuses.reverse) = .ok loaded ∧
      loaded.statuses = (after forgetful).statuses) ∧
    ofFile (saved "statuses.json" [⟨7, "b", ⟨1709208000, 500000000⟩⟩]) =
      .ok ⟨[⟨7, "b", ⟨1709208000, 500000000⟩⟩]⟩ := by
  constructor
  · have storable : ∀ status, .record status ∈ forgetful → Storable status := by
      intro status inside
      simp only [forgetful, List.mem_cons, StatusChange.record.injEq, reduceCtorEq, List.not_mem_nil,
        false_or, or_false] at inside
      rcases inside with rfl | rfl | rfl
      · exact ⟨by decide, by decide⟩
      · exact ⟨by decide, by decide⟩
      · exact ⟨by decide, by decide⟩
    obtain ⟨loaded, read, same, -⟩ := (survives_restart "statuses.json").1 _ storable _
      (List.reverse_perm _)
    exact ⟨loaded, read, same⟩
  · have text : ofText? "[[7,\"a\",\"2024-02-29T12:00:00Z\"],
        [7,\"b\",\"2024-02-29 14:00:00.5+02:00\"]]".toList =
        some ⟨[⟨7, "b", ⟨1709208000, 500000000⟩⟩]⟩ := by decide +kernel
    have loaded : ofFile ⟨"statuses.json", .bytes (Text.encode
        "[[7,\"a\",\"2024-02-29T12:00:00Z\"],
        [7,\"b\",\"2024-02-29 14:00:00.5+02:00\"]]".toList)⟩ =
        .ok ⟨[⟨7, "b", ⟨1709208000, 500000000⟩⟩]⟩ := by
      dsimp only [ofFile]
      rw [Text.decodeDocument_encode, load, text]
    exact ((survives_restart "statuses.json").2 _ _ loaded (by decide)).1 _ (.refl _)

end StatusTable

end SearchRelay
