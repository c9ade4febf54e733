import SearchRelay.Proofs.Bulk.Held
import SearchRelay.Proofs.Indexer.Redelivery
import SearchRelay.Proofs.Record.Stored
import SearchRelay.Proofs.Search.Truth
import SearchRelay.Proofs.Search.Visibility

/-!
What the indexer writes is what a search finds. The stamps that the one side puts on a document are
the fields that the other side asks for, so a scope counts the records of its kind.
-/

namespace SearchRelay

/-- The kind of record that a scope shows, for scopes that show records of a table. -/
def Scope.recordKind? : Scope → Option Kind
  | projects => some .project
  | issues => some .issue
  | mergeRequests => some .mergeRequest
  | milestones => some .milestone
  | notes => some .note
  | users => some .user
  | blobs | wikiBlobs | commits => none

theorem Scope.textFields_plain {scope : Scope} (shown : scope.recordKind?.isSome) :
    ∀ field ∈ scope.textFields,
      '.' ∉ field.toList ∧ field ≠ "type" ∧ field ≠ "id" ∧ field ≠ "project_id" := by
  cases scope with
  | blobs | wikiBlobs | commits => cases shown
  | projects | issues | mergeRequests | milestones | notes | users => decide

/-- The stamp of a kind is the type that its scope asks for. -/
theorem Scope.documentType_iff {scope : Scope} (shown : scope.recordKind?.isSome) {kind : Kind} :
    kind.documentType = scope.documentType ↔ scope.recordKind? = some kind := by
  cases scope with
  | blobs | wikiBlobs | commits => cases shown
  | projects | issues | mergeRequests | milestones | notes | users =>
    cases kind <;> simp [recordKind?, documentType, Kind.documentType]

/-- A search in these projects looks at what belongs to a project, or to none. An allowlist leaves
out what belongs to none. -/
def ProjectScope.Takes : ProjectScope → Option Nat → Prop
  | .all, _ => True
  | .only allowed, project => ∃ listed ∈ allowed, project = some listed

/-- A record that a scope has to show for a query: it is of the scope's kind, in one of the projects
unless it is a user, and its text fields hold every word. -/
structure RecordLine.Answers (line : RecordLine) (scope : Scope) (projects : ProjectScope)
    (query : String) : Prop where
  kind : scope.recordKind? = some line.kind
  project : scope ≠ .users → projects.Takes line.toRecord.projectId
  mentioned : line.document.Mentions scope.textFields query

instance (document : Json) (fields : List String) (query : String) :
    Decidable (document.Mentions fields query) :=
  decidable_of_iff _ Filter.accepts_words

instance (projects : ProjectScope) (project : Option Nat) : Decidable (projects.Takes project) := by
  cases projects <;> unfold ProjectScope.Takes <;> infer_instance

instance (line : RecordLine) (scope : Scope) (projects : ProjectScope) (query : String) :
    Decidable (line.Answers scope projects query) :=
  decidable_of_iff (scope.recordKind? = some line.kind ∧
      (scope ≠ .users → projects.Takes line.toRecord.projectId) ∧
        line.document.Mentions scope.textFields query)
    ⟨fun ⟨kind, project, mentioned⟩ => ⟨kind, project, mentioned⟩,
      fun answers => ⟨answers.kind, answers.project, answers.mentioned⟩⟩

/-! ### What is stored -/

namespace RecordLine

variable {line : RecordLine} {index : String}

/-- The document of a line as the indexer writes it. -/
def written (line : RecordLine) : Json := stamp line.document line.reference line.toRecord

def stored (index : String) (line : RecordLine) : StoredDocument :=
  ⟨index, line.reference.searchId, line.reference.routing, line.written⟩

def operation (index : String) (line : RecordLine) : Operation :=
  ⟨index, line.reference, some line.written⟩

theorem Indexable.plan_line (indexable : line.Indexable) {table : RecordTable}
    (known : table.find? line.kind line.id = some line.toRecord) :
    Indexer.plan index (Indexer.admits none) table.source line.reference =
      some (line.operation index) := by
  have found : table.source line.reference.kind line.reference.databaseId =
      .ok (some line.toRecord) := congrArg Except.ok known
  have outside : ¬ line.reference.kind.inRepository := indexable.outside
  rw [Indexer.plan, if_neg outside, found]
  simp only [Indexer.admits, if_true, Indexer.decideRecord, indexable.content]
  rfl

theorem Indexable.portable_call (indexable : line.Indexable) {table : RecordTable}
    (known : table.find? line.kind line.id = some line.toRecord) :
    (Indexer.Call.process table.source line.reference).Portable := by
  refine ⟨indexable.number, ?_⟩
  intro record found
  have same : table.find? line.kind line.id = some record := Except.ok.inj found
  obtain rfl := Option.some.inj (known.symm.trans same)
  constructor
  · intro body content
    rw [indexable.content, Content.document.injEq] at content
    exact content ▸ indexable.portable
  · intro project here
    unfold toRecord at here
    dsimp only at here
    split at here
    next =>
      obtain rfl := Option.some.inj here
      exact indexable.number
    next => exact indexable.project project here

/-! ### What is read -/

theorem Indexable.lookup_written (indexable : line.Indexable) {key : String}
    (plain : '.' ∉ key.toList) :
    line.written.lookup key =
      if key = "type" then some (.str line.kind.documentType)
      else if key = "id" then some (.ofNat line.id)
      else if key = "project_id" then line.toRecord.projectId.map .ofNat
      else line.document.lookup key := by
  rw [Json.lookup_key _ plain, Json.lookup_key _ plain]
  exact get?_stamp indexable.unstamped line.reference line.toRecord key

theorem Indexable.has_type (indexable : line.Indexable) (type : String) :
    line.written.Has "type" (.str type) ↔ line.kind.documentType = type := by
  rw [Json.Has, indexable.lookup_written (by decide)]
  simp

theorem Indexable.has_id (indexable : line.Indexable) (id : Nat) :
    line.written.Has "id" (.ofNat id) ↔ line.id = id := by
  rw [Json.Has, indexable.lookup_written (by decide)]
  simp [Json.ofNat]

theorem Indexable.has_project (indexable : line.Indexable) (project : Nat) :
    line.written.Has "project_id" (.ofNat project) ↔ line.toRecord.projectId = some project := by
  rw [Json.Has, indexable.lookup_written (by decide)]
  cases line.toRecord.projectId <;> simp [Json.ofNat]

theorem Indexable.mentions_written (indexable : line.Indexable) (scope : Scope) (query : String)
    (shown : scope.recordKind?.isSome) :
    line.written.Mentions scope.textFields query ↔ line.document.Mentions scope.textFields query := by
  have fields : ∀ field ∈ scope.textFields, line.written.lookup field = line.document.lookup field := by
    intro field inside
    obtain ⟨plain, type, id, project⟩ := Scope.textFields_plain shown field inside
    rw [indexable.lookup_written plain, if_neg type, if_neg id, if_neg project]
  unfold Json.Mentions
  refine and_congr_right fun _ => forall₂_congr fun word _ => exists_congr fun field => ?_
  exact and_congr_right fun inside => by rw [fields field inside]

end RecordLine

/-- A question of an administrator with nothing but a query. -/
def Question.plain (index query : String) (projects : ProjectScope) (policy : AccessPolicy)
    (admin perPage : Nat) : Question :=
  ⟨index, query, .resolve (.user admin true) projects policy, ⟨none, none, none⟩, perPage⟩

theorem Question.accepts_plain {index query : String} {projects : ProjectScope}
    {policy : AccessPolicy} {admin perPage : Nat} (active : policy.adminActive admin) (scope : Scope)
    (document : Json) :
    Filter.accepts document ((plain index query projects policy admin perPage).scopeFilter scope) ↔
      document.Has "type" (.str scope.documentType) ∧ document.Mentions scope.textFields query ∧
        ∀ field ∈ scope.projectField, projects = .all ∨
          ∃ allowed, projects = .only allowed ∧
            ∃ project ∈ allowed, document.Has field (.ofNat project) := by
  have text (value : String) : (Json.str value).IsExact := trivial
  have everything : (Visibility.resolve (.user admin true) projects policy).confidentialityFilter =
      .everything := by
    simp [Visibility.resolve, Visibility.confidentialityFilter, active]
  have listed : (Visibility.resolve (.user admin true) projects policy).projects = projects := rfl
  simp only [plain, scopeFilter, Filter.accepts_allOf, List.forall_mem_append, List.forall_mem_cons,
    List.not_mem_nil, false_imp_iff, implies_true, and_true, Filter.forall_mem_toList,
    Filter.forall_mem_ite, Filter.accepts_equals (text _), Filter.accepts_words, Json.mentions_trim,
    Filter.accepts_projectFilter, listed, everything]
  simp only [wantedState?, Filter.accepts, Option.filter_none, Option.not_mem_none, false_imp_iff,
    implies_true, and_true, and_assoc]

theorem ProjectScope.takes_iff {projects : ProjectScope} {project : Option Nat} :
    projects.Takes project ↔ projects = .all ∨
      ∃ allowed, projects = .only allowed ∧ ∃ listed ∈ allowed, project = some listed := by
  cases projects <;> simp [Takes]

namespace RecordLine.Indexable

variable {line : RecordLine} (indexable : line.Indexable)
include indexable

theorem own_project (kind : line.kind = .project) : line.toRecord.projectId = some line.id := by
  have named := Kind.className_of_ofClassName? indexable.known
  rw [kind] at named
  exact if_pos named

/-- The field with the project of a scope's documents is the one that the stamp fills. -/
theorem takes_written {scope : Scope} (kind : scope.recordKind? = some line.kind)
    (projects : ProjectScope) :
    (∀ field ∈ scope.projectField, projects = .all ∨ ∃ allowed, projects = .only allowed ∧
      ∃ project ∈ allowed, line.written.Has field (.ofNat project)) ↔
    (scope ≠ .users → projects.Takes line.toRecord.projectId) := by
  cases scope with
  | blobs | wikiBlobs | commits => cases kind
  | users => simp [Scope.projectField]
  | projects =>
    have own := indexable.own_project (Option.some.inj kind).symm
    simp [Scope.projectField, ProjectScope.takes_iff, indexable.has_id, own]
  | issues | mergeRequests | milestones | notes =>
    simp [Scope.projectField, ProjectScope.takes_iff, indexable.has_project]

/-- A question finds the document of a line if and only if the line answers it. -/
theorem finds_stored {index query : String} {projects : ProjectScope} {policy : AccessPolicy}
    {admin perPage : Nat} (active : policy.adminActive admin) {scope : Scope}
    (shown : scope.recordKind?.isSome) :
    (Question.plain index query projects policy admin perPage).finds scope (line.stored index) ↔
      line.Answers scope projects query := by
  have here : (line.stored index).index = (Question.plain index query projects policy admin
    perPage).index := rfl
  have source : (line.stored index).source = line.written := rfl
  rw [Question.finds, here, beq_self_eq_true, Bool.true_and, source, Question.accepts_plain active,
    indexable.has_type, Scope.documentType_iff shown, indexable.mentions_written scope query shown]
  constructor
  · rintro ⟨kind, mentioned, project⟩
    exact ⟨kind, (indexable.takes_written kind projects).1 project, mentioned⟩
  · rintro ⟨kind, project, mentioned⟩
    exact ⟨kind, mentioned, (indexable.takes_written kind projects).2 project⟩

end RecordLine.Indexable

theorem Results.count_ask {question : Question} (asked : ¬ question.isBlank) {cluster : MemoryCluster}
    (here : cluster.unavailable = false) (scope : Scope) :
    ((Results.ask question).count MemoryCluster.backend scope cluster).1 =
      .ok (question.number cluster.documents scope) := by
  have unknown : (Results.ask question).knownCount? scope = none := rfl
  have number : (cluster.matching (question.request scope 0 0)).length =
      question.number cluster.documents scope := MemoryCluster.length_matching scope 0 0
  have away : ¬ cluster.unavailable := Bool.eq_false_iff.1 here
  have question : (Results.ask question).question = question := rfl
  rw [count, question, if_neg asked, unknown]
  simp only [MemoryCluster.backend, MemoryCluster.count, if_neg away, number]

/-- The documents after a delivery are those of the lines, in the order of the queue. -/
theorem documents_perm {lines : List RecordLine} (indexable : ∀ line ∈ lines, line.Indexable)
    (apart : (lines.map RecordLine.key).Nodup) {table : RecordTable}
    (known : ∀ line ∈ lines, table.find? line.kind line.id = some line.toRecord)
    {queue : List Reference} (perm : queue.Perm (lines.map RecordLine.reference)) (index : String) :
    (Operation.applyAll []
      (queue.filterMap (Indexer.plan index (Indexer.admits none) table.source)) []).Perm
      (lines.map (RecordLine.stored index)) := by
  have operations : (lines.map RecordLine.reference).filterMap
      (Indexer.plan index (Indexer.admits none) table.source) =
        lines.map (RecordLine.operation index) := by
    rw [List.filterMap_map, ← List.filterMap_eq_map]
    apply List.filterMap_congr
    exact fun line inside => (indexable line inside).plan_line (known line inside)
  have planned : (queue.filterMap (Indexer.plan index (Indexer.admits none) table.source)).Perm
      (lines.map (RecordLine.operation index)) := operations ▸ perm.filterMap _
  have unlike : (lines.map (RecordLine.operation index)).Pairwise fun first second =>
      first.reference.searchId ≠ second.reference.searchId := by
    apply List.pairwise_map.2
    apply (List.pairwise_map.1 apart).imp_of_mem
    intro line other first second different same
    exact different ((indexable line first).key_of_searchId (indexable other second) same)
  have ordered := planned.symm.pairwise unlike Ne.symm
  rw [Operation.applyAll_new ordered fun _ _ _ inside => absurd inside List.not_mem_nil, List.nil_append]
  refine (planned.flatMap_right _).trans (.of_eq ?_)
  rw [List.flatMap_map]
  exact List.flatMap_pure_eq_map _ _

/-- Everything that was written is found, by the scope of its kind and by no other. -/
theorem written_is_found {lines : List RecordLine} (indexable : ∀ line ∈ lines, line.Indexable)
    (apart : (lines.map RecordLine.key).Nodup) :
    ∃ table references,
      lines.foldlM (fun table line => table.insert line.toRecord) RecordTable.empty =
        Except.ok table ∧
      (lines.mapM fun line => Reference.ofRecord line.toRecord) = .ok references ∧
      ∀ queue : List Reference, queue.Perm references → ∀ (index : String) (limit : Nat),
        let done := Indexer.run MemoryCluster.backend (Indexer.delivery table.source queue)
          (Indexer.new index limit none, MemoryCluster.empty)
        ∀ (query : String) (projects : ProjectScope) (policy : AccessPolicy) (admin perPage : Nat),
          ¬ Text.isBlank query.toList → policy.adminActive admin →
          ∀ scope : Scope, scope.recordKind?.isSome →
            ((Results.ask (.plain index query projects policy admin perPage)).count
                MemoryCluster.backend scope done.2).1 =
              .ok (lines.filter fun line => line.Answers scope projects query).length := by
  obtain ⟨table, inserted, known, -⟩ := RecordTable.insert_lines indexable apart .empty
  refine ⟨table, _, inserted, RecordLine.references_of_lines indexable, ?_⟩
  intro queue perm index limit done query projects policy admin perPage asked active scope shown
  have sent : ∀ reference ∈ queue, ∃ line ∈ lines, line.reference = reference := fun reference inside =>
    List.mem_map.1 (perm.mem_iff.1 inside)
  have portable : ∀ reference ∈ queue, (Indexer.Call.process table.source reference).Portable := by
    intro reference inside
    obtain ⟨line, member, rfl⟩ := sent reference inside
    exact (indexable line member).portable_call (known line member)
  have ready : MemoryCluster.empty.Open := ⟨rfl, rfl⟩
  obtain ⟨after, tracks, held, performed, -⟩ := (Indexer.Tracks.new index limit none ready).delivery portable
  have stored : done.2.documents.Perm (lines.map (RecordLine.stored index)) :=
    (held.trans performed) ▸ documents_perm indexable apart known perm index
  let question := Question.plain index query projects policy admin perPage
  have notBlank : ¬ question.isBlank := asked
  rw [Results.count_ask notBlank tracks.ready.here scope, Question.number, (stored.filter _).length_eq,
    List.filter_map, List.length_map]
  congr 2
  apply List.filter_congr
  intro line inside
  have finds : question.finds scope (line.stored index) ↔ line.Answers scope projects query :=
    (indexable line inside).finds_stored active shown
  rw [Function.comp_apply, Bool.eq_iff_iff, finds, decide_eq_true_iff]

/-- A project, an issue in it, and one in no project. -/
def relayLines : List RecordLine :=
  [⟨"Project", 7, none, .obj [("name", .str "Relay")], false, none⟩,
    ⟨"Issue", 1, some 7, .obj [("title", .str "the relay stops")], false, none⟩,
    ⟨"Issue", 2, none, .obj [("title", .str "no relay")], false, none⟩]

theorem relayLines_indexable : ∀ line ∈ relayLines, line.Indexable := by
  have portable (key text : String) : (Json.obj [(key, .str text)]).Portable :=
    .obj (by simp [Entries.Sorted]) (by simpa using .str text) (by simp [Json.nesting, Json.maxDepth])
  have unstamped (key text : String) (free : key ≠ "type" ∧ key ≠ "id" ∧ key ≠ "project_id") :
      (Json.obj [(key, .str text)]).Unstamped := by
    obtain ⟨type, id, project⟩ := free
    exact ⟨⟨_, rfl⟩, by simp [Json.get?, Entries.find?, type], by simp [Json.get?, Entries.find?, id],
      by simp [Json.get?, Entries.find?, project]⟩
  have indexable (kind : Kind) (outside : ¬ kind.inRepository) (id : Nat) (small : id < 8)
      (project : Option Nat) (inside : project = none ∨ project = some 7) (key text : String)
      (free : key ≠ "type" ∧ key ≠ "id" ∧ key ≠ "project_id") :
      (RecordLine.mk kind.className id project (.obj [(key, .str text)]) false none).Indexable := by
    refine ⟨⟨kind, Kind.ofClassName?_className kind, outside⟩, rfl, rfl, portable key text,
      unstamped key text free, by simp; omega, ?_⟩
    intro number known
    rcases inside with rfl | rfl
    · cases known
    · obtain rfl := Option.some.inj known
      decide
  apply List.forall_mem_cons.2 ⟨indexable .project (by decide) 7 (by decide) none (Or.inl rfl) _ _ (by decide), ?_⟩
  apply List.forall_mem_cons.2 ⟨indexable .issue (by decide) 1 (by decide) _ (Or.inr rfl) _ _ (by decide), ?_⟩
  exact List.forall_mem_singleton.2 (indexable .issue (by decide) 2 (by decide) none (Or.inl rfl) _ _ (by decide))

/-- Of the two issues the one in the project is found; case does not count. -/
theorem written_is_found_relay :
    ∃ table references,
      relayLines.foldlM (fun table line => table.insert line.toRecord) RecordTable.empty =
        Except.ok table ∧
      (relayLines.mapM fun line => Reference.ofRecord line.toRecord) = .ok references ∧
      ((Results.ask (.plain "gitlab" "RELAY" (.only [7]) ⟨fun _ => true, fun _ _ => []⟩ 1 20)).count
        MemoryCluster.backend .issues
        (Indexer.run MemoryCluster.backend (Indexer.delivery table.source references.reverse)
          (Indexer.new "gitlab" 1 none, MemoryCluster.empty)).2).1 = .ok 1 := by
  obtain ⟨table, references, inserted, built, finds⟩ :=
    written_is_found relayLines_indexable (by decide)
  refine ⟨table, references, inserted, built, ?_⟩
  have found := finds references.reverse (List.reverse_perm _) "gitlab" 1 "RELAY" (.only [7])
    ⟨fun _ => true, fun _ _ => []⟩ 1 20 (by decide) rfl .issues rfl
  rw [found]
  decide +kernel

end SearchRelay
