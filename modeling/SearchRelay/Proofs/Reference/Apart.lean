import SearchRelay.Proofs.Bulk.Decoding
import SearchRelay.Proofs.Record.Stored

/-!
Documents of different kinds. The ids of rows begin with a type, those of wiki pages with a mark of
their own and those of files and commits with a number. So only a file and a commit can have one id:
those of one project and one name. Documents with ids of their own leave each other alone.
-/

namespace SearchRelay

theorem Kind.searchId_first {kind : Kind} (outside : kind.inRepository = false) (id : Nat) :
    ∃ first rest, (kind.searchId id).toList = first :: rest ∧ first ≠ 'w' ∧ ¬ first.isDigit := by
  rw [searchId, String.toList_ofList]
  cases kind with
  | commit | blob | wikiBlob => cases outside
  | project | issue | mergeRequest | note | milestone | snippet | user =>
    exact ⟨_, _, rfl, by decide, by decide⟩

theorem Kind.searchId_ne_repositoryId {kind : Kind} (outside : kind.inRepository = false)
    (other : Kind) (id project : Nat) (key : String) :
    kind.searchId id ≠ Reference.repositoryId other project key := by
  intro same
  obtain ⟨first, rest, text, letter, digit⟩ := Kind.searchId_first outside id
  obtain ⟨start, more, split, -, begins⟩ := Reference.repositoryId_first other project key
  rw [same, split] at text
  obtain ⟨rfl, -⟩ := List.cons.inj text
  exact begins.elim letter digit

/-! ### What documents stand for -/

/-- What a document stands for: a row of a table, or an object in the repository of a project. -/
inductive Subject where
  | row (kind : Kind) (outside : kind.inRepository = false) (id : Nat)
  | object (kind : Kind) (inside : kind.inRepository = true) (project : Nat) (key : String)

namespace Subject

def kind : Subject → Kind
  | row kind _ _ => kind
  | object kind _ _ _ => kind

def documentId : Subject → String
  | row kind _ id => kind.searchId id
  | object kind _ project key => (Reference.ofRepository kind project key).searchId

/-- A file and a commit of one project that go by one name. -/
inductive Namesakes : Subject → Subject → Prop
  | file (project : Nat) (name : String) :
    Namesakes (object .blob rfl project name) (object .commit rfl project name)
  | commit (project : Nat) (name : String) :
    Namesakes (object .commit rfl project name) (object .blob rfl project name)

theorem documentId_eq_iff {a b : Subject} (unlike : a.kind ≠ b.kind) :
    a.documentId = b.documentId ↔ a.Namesakes b := by
  constructor
  · intro same
    match a, b with
    | row kind _ id, row other _ number =>
      exact absurd (Kind.searchId_injective same).1 unlike
    | row kind outside id, object other _ project key =>
      exact absurd same (Kind.searchId_ne_repositoryId outside other id project key)
    | object kind _ project key, row other outside id =>
      exact absurd same.symm (Kind.searchId_ne_repositoryId outside kind id project key)
    | object .wikiBlob _ project key, object other _ number name =>
      exact absurd same (Reference.wikiId_ne_repositoryId (Ne.symm unlike) _ _ _ _)
    | object kind _ project key, object .wikiBlob _ number name =>
      exact absurd same.symm (Reference.wikiId_ne_repositoryId unlike _ _ _ _)
    | object .blob _ project key, object .commit _ number name =>
      obtain ⟨rfl, rfl⟩ := (Reference.repositoryId_eq_iff (by decide) (by decide)).1 same
      exact .file project key
    | object .commit _ project key, object .blob _ number name =>
      obtain ⟨rfl, rfl⟩ := (Reference.repositoryId_eq_iff (by decide) (by decide)).1 same
      exact .commit project key
    | object .blob _ _ _, object .blob _ _ _ => exact absurd rfl unlike
    | object .commit _ _ _, object .commit _ _ _ => exact absurd rfl unlike
  · intro namesakes
    cases namesakes with
    | file => rfl
    | commit => rfl

end Subject

/-! ### Documents that leave each other alone -/

namespace MemoryCluster

/-- Whatever a request indexes or deletes under the one id, what stands under the other one stays. -/
def Spares (id other : String) : Prop :=
  ∀ (cluster : MemoryCluster) (operations : List Operation),
    (∀ operation ∈ operations, operation.Portable ∧ operation.reference.searchId = id) →
    ∀ index, (cluster.bulk (Operation.body operations)).2.find? index other =
      cluster.find? index other

theorem find?_bulk_shut {cluster : MemoryCluster} (shut : ¬ cluster.Open) (body index id : String) :
    (cluster.bulk body).2.find? index id = cluster.find? index id := by
  obtain ⟨report, after, away, same⟩ := bulk_shut shut body
  rw [away, find?, find?, same]

theorem spares_iff {id other : String} : Spares id other ↔ id ≠ other := by
  constructor
  · -- a deletion takes the document away from its own id
    rintro spares rfl
    let cluster : MemoryCluster := { empty with documents := [⟨"", id, none, .null⟩] }
    let deletion : Operation := ⟨"", ⟨.issue, 0, id, none⟩, none⟩
    have ready : cluster.Open := ⟨rfl, rfl⟩
    have portable : deletion.Portable := fun _ same => nomatch same
    obtain ⟨response, after, taken, -, -, -, found, -⟩ :=
      bulk_decodes ready (List.forall_mem_singleton.2 portable)
    have acts : deletion.Acts cluster.rejected "" id := ⟨⟨rfl, rfl⟩, Bool.false_ne_true⟩
    have stays := spares cluster [deletion] (List.forall_mem_singleton.2 ⟨portable, rfl⟩) ""
    rw [taken, found, List.foldl_cons, Operation.effect_acts acts] at stays
    have here : (cluster.find? "" id).isSome := by simp [cluster, find?, isAt]
    rw [← stays] at here
    cases here
  · intro apart cluster operations plain index
    by_cases ready : cluster.Open
    · obtain ⟨response, after, taken, -, -, -, found, -⟩ :=
        bulk_decodes ready fun operation inside => (plain operation inside).1
      rw [taken, found]
      apply Operation.foldl_effect
      · intro operation inside acts
        exact absurd ((plain operation inside).2.symm.trans acts.1.2) apart
      · exact Or.inl rfl
    · exact find?_bulk_shut ready _ index other

end MemoryCluster

namespace Subject

/-- Documents of different kinds have ids of their own and leave each other alone, unless they stand
for a file and a commit of one project that go by one name. -/
theorem kinds_apart_iff {a b : Subject} (unlike : a.kind ≠ b.kind) :
    (a.documentId ≠ b.documentId ↔ ¬ a.Namesakes b) ∧
      (MemoryCluster.Spares a.documentId b.documentId ↔ ¬ a.Namesakes b) := by
  have ids := not_congr (documentId_eq_iff unlike)
  exact ⟨ids, MemoryCluster.spares_iff.trans ids⟩

/-- A wiki page may be called as a file is, and an issue numbered as its project, and the page is
still told from both. -/
theorem kinds_apart_iff_page :
    let page : Subject := object .wikiBlob rfl 7 "c1"
    let file : Subject := object .blob rfl 7 "c1"
    let issue : Subject := row .issue rfl 7
    (page.kind ≠ file.kind ∧ page.kind ≠ issue.kind) ∧ page.documentId ≠ file.documentId ∧
      MemoryCluster.Spares page.documentId issue.documentId := by
  intro page file issue
  have first : page.kind ≠ file.kind := by decide
  have second : page.kind ≠ issue.kind := by decide
  have alone (other : Subject) : ¬ Namesakes (object .wikiBlob rfl 7 "c1") other := by
    intro namesakes
    cases namesakes
  exact ⟨⟨first, second⟩, (kinds_apart_iff first).1.2 (alone file),
    (kinds_apart_iff second).2.2 (alone issue)⟩

/-- A file that goes by the id of a commit of its project does not leave the commit alone. -/
theorem file_replaces_commit :
    let file : Subject := object .blob rfl 7 "c1"
    let commit : Subject := object .commit rfl 7 "c1"
    file.kind ≠ commit.kind ∧ file.documentId = commit.documentId ∧
      ¬ MemoryCluster.Spares file.documentId commit.documentId := by
  intro file commit
  have same : file.documentId = commit.documentId := rfl
  exact ⟨by decide, same, fun spares => MemoryCluster.spares_iff.1 spares same⟩

end Subject

end SearchRelay
