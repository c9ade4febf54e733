import SearchRelay.Proofs.Text.Decimal
import SearchRelay.Proofs.Text.Percent
import SearchRelay.Proofs.Text.Words

/-!
What comes back from the wire. A reference survives being one line of a queue if and only if its
search id and its routing are words, and only such references ever come from one.
-/

namespace SearchRelay

theorem Kind.ofClassName?_className (kind : Kind) : ofClassName? kind.className = some kind := by
  cases kind <;> rfl

theorem Kind.isWord_className (kind : Kind) : Text.isWord kind.className.toList := by
  cases kind <;> rfl

theorem Kind.isWord_documentType (kind : Kind) : Text.isWord kind.documentType.toList := by
  cases kind <;> rfl

theorem Kind.className_of_ofClassName? {name : String} {kind : Kind}
    (known : ofClassName? name = some kind) : name = kind.className := by
  unfold ofClassName? at known
  have same := List.find?_some known
  exact (beq_iff_eq.1 same).symm

theorem Text.isWord_decimal (n : Nat) : isWord (decimal n) := by
  refine isWord_iff.2 ⟨decimal_ne_nil n, ?_⟩
  intro c inside
  exact isSpace_of_isDigit (isDigit_of_mem_decimal inside)

theorem Text.isWord_append {before after : List Char} (first : isWord before)
    (free : ∀ c ∈ after, isSpace c = false) : isWord (before ++ after) := by
  obtain ⟨nonempty, solid⟩ := isWord_iff.1 first
  refine isWord_iff.2 ⟨List.append_ne_nil_of_left_ne_nil nonempty after, ?_⟩
  exact List.forall_mem_append.2 ⟨solid, free⟩

namespace Reference

/-- The search id and the routing are words: they are not empty and hold no blank. -/
structure WireSafe (reference : Reference) : Prop where
  searchId : Text.isWord reference.searchId.toList
  routing : ∀ routing ∈ reference.routing, Text.isWord routing.toList

variable {reference : Reference}

theorem words_joined {fields : List String} (solid : ∀ field ∈ fields, Text.isWord field.toList) :
    (Text.words (joined fields).toList).map String.ofList = fields := by
  have texts : (joined fields).toList = [' '].intercalate (fields.map String.toList) := by
    rw [joined, String.toList_intercalate]
    rfl
  rw [texts, Text.words_intercalate (List.forall_mem_map.2 solid), List.map_map]
  simp [Function.comp_def]

theorem WireSafe.fields (safe : reference.WireSafe) :
    ∀ field ∈ reference.fields, Text.isWord field.toList := by
  simp only [Reference.fields, List.forall_mem_append, List.forall_mem_cons, Option.mem_toList]
  refine ⟨⟨reference.kind.isWord_className, ?_, safe.searchId, nofun⟩, safe.routing⟩
  rw [String.toList_ofList]
  exact Text.isWord_decimal reference.databaseId

theorem ofFields_fields (fits : reference.databaseId ≤ Text.maxWord) :
    ofFields reference.fields = .ok reference := by
  obtain ⟨kind, id, searchId, routing⟩ := reference
  have built (routing : Option String) :
      build kind.className (String.ofList (Text.decimal id)) searchId routing =
        .ok ⟨kind, id, searchId, routing⟩ := by
    rw [build, kind.ofClassName?_className]
    simp only [String.toList_ofList, Text.readWord?_decimal fits]
  cases routing with
  | none => exact built none
  | some routing => exact built (some routing)

theorem build_ok {className id searchId : String} {routing : Option String}
    (built : build className id searchId routing = .ok reference) :
    reference.searchId = searchId ∧ reference.routing = routing ∧
      reference.databaseId ≤ Text.maxWord := by
  unfold build at built
  split at built
  next => cases built
  split at built
  next => cases built
  next number read =>
    cases built
    exact ⟨rfl, rfl, Text.readWord?_le read⟩

/-- Only a reference with a number of 64 bits and words for its ids is ever read. -/
theorem WireSafe.of_parse {text : String} (parsed : parse text = .ok reference) :
    reference.WireSafe ∧ reference.databaseId ≤ Text.maxWord := by
  have solid : ∀ field ∈ (Text.words text.toList).map String.ofList,
      Text.isWord field.toList := by
    refine List.forall_mem_map.2 fun word member => ?_
    rw [String.toList_ofList]
    exact Text.isWord_of_word member
  unfold parse at parsed
  generalize (Text.words text.toList).map String.ofList = fields at solid parsed
  unfold ofFields at parsed
  split at parsed
  next className id searchId =>
    obtain ⟨rfl, routing, fits⟩ := build_ok parsed
    refine ⟨⟨solid _ (by simp), ?_⟩, fits⟩
    rw [routing]
    nofun
  next className id searchId routing =>
    obtain ⟨rfl, same, fits⟩ := build_ok parsed
    refine ⟨⟨solid _ (by simp), ?_⟩, fits⟩
    rw [same]
    rintro _ ⟨⟩
    exact solid _ (by simp)
  next => cases parsed

theorem WireSafe.parse_wire (safe : reference.WireSafe)
    (fits : reference.databaseId ≤ Text.maxWord) : parse reference.wire = .ok reference := by
  have words := words_joined safe.fields
  unfold parse wire
  rw [words, ofFields_fields fits]

theorem parse_wire_iff :
    parse reference.wire = .ok reference ↔
      reference.WireSafe ∧ reference.databaseId ≤ Text.maxWord :=
  ⟨WireSafe.of_parse, fun safe => safe.1.parse_wire safe.2⟩

/-! ### References of records and of repositories -/

theorem isWord_searchId (kind : Kind) (id : Nat) : Text.isWord (kind.searchId id).toList := by
  have number := (Text.isWord_iff.1 (Text.isWord_decimal id)).2
  rw [Kind.searchId, String.toList_ofList]
  exact Text.isWord_append kind.isWord_documentType (List.forall_mem_cons.2 ⟨rfl, number⟩)

theorem isWord_projectRouting (project : Nat) : Text.isWord (projectRouting project).toList := by
  have mark : Text.isWord "project_".toList := rfl
  have text : (projectRouting project).toList = "project_".toList ++ Text.decimal project :=
    String.toList_ofList
  rw [text]
  exact Text.isWord_append mark (Text.isWord_iff.1 (Text.isWord_decimal project)).2

theorem WireSafe.ofRecord {record : Record} {kind : Kind} (known : record.kind? = some kind) :
    ∃ reference, Reference.ofRecord record = .ok reference ∧ reference.WireSafe := by
  refine ⟨⟨kind, record.id, record.searchId, record.routing⟩, by rw [Reference.ofRecord, known], ?_, ?_⟩
  · simp only [Record.searchId, known]
    exact isWord_searchId kind record.id
  · intro routing member
    simp only [Record.routing, known] at member
    split at member
    next =>
      obtain ⟨project, -, rfl⟩ := Option.map_eq_some_iff.1 member
      exact isWord_projectRouting project
    next => cases member

theorem WireSafe.ofRepository (kind : Kind) (project : Nat) (key : String) :
    (Reference.ofRepository kind project key).WireSafe := by
  refine ⟨?_, ?_⟩
  · have escaped : ∀ c ∈ escapeKey key.toList, Text.isSpace c = false := fun c =>
      Text.isSpace_percentEncode fun c space => by simp [space]
    have number := (Text.isWord_iff.1 (Text.isWord_decimal project)).2
    have mark : Text.isWord "wiki_".toList := rfl
    have behind : ∀ c ∈ '_' :: escapeKey key.toList, Text.isSpace c = false :=
      List.forall_mem_cons.2 ⟨rfl, escaped⟩
    rw [Reference.ofRepository, repositoryId, String.toList_ofList]
    refine Text.isWord_append ?_ behind
    split
    next => exact Text.isWord_append mark number
    next => exact Text.isWord_decimal project
  · rintro _ ⟨⟩
    exact isWord_projectRouting project

/-- A reference comes back from the wire if and only if it is wire-safe. Every reference that is
read from any text is, and so is every reference of a record or of an object in a repository. -/
theorem wireSafe_iff_survives :
    (∀ reference, parse reference.wire = .ok reference ↔
      reference.WireSafe ∧ reference.databaseId < 2 ^ 64) ∧
    (∀ text reference, parse text = .ok reference →
      reference.WireSafe ∧ parse reference.wire = .ok reference) ∧
    (∀ line : RecordLine, (Kind.ofClassName? line.className).isSome →
      ∃ reference, Reference.ofRecord line.toRecord = .ok reference ∧ reference.WireSafe) ∧
    ∀ kind project key, kind.inRepository →
      (Reference.ofRepository kind project key).WireSafe := by
  have bound (n : Nat) : n ≤ Text.maxWord ↔ n < 2 ^ 64 := by
    rw [Text.maxWord, Nat.pow_eq]
    omega
  refine ⟨?_, ?_, ?_, fun kind project key _ => .ofRepository kind project key⟩
  · intro reference
    rw [parse_wire_iff, bound]
  · intro text reference parsed
    obtain ⟨safe, fits⟩ := WireSafe.of_parse parsed
    exact ⟨safe, safe.parse_wire fits⟩
  · intro line registered
    obtain ⟨kind, known⟩ := Option.isSome_iff_exists.1 registered
    have found : line.toRecord.kind? = some kind := known
    exact WireSafe.ofRecord found

/-- An untidy line is read, and what is read survives. A blank inside a search id would not. -/
theorem wireSafe_iff_survives_untidy :
    let tag : Reference := ⟨.issue, 42, "issue_42", some "project_7"⟩
    let shifted : Reference := ⟨.issue, 42, "issue 42", none⟩
    let line : RecordLine := (RecordLine.ofDocument .note 5 .null).inProject 7
    parse "  Issue\t+0042 issue_42  project_7\n" = .ok tag ∧
      tag.WireSafe ∧ parse tag.wire = .ok tag ∧ parse shifted.wire ≠ .ok shifted ∧
      (∃ reference, Reference.ofRecord line.toRecord = .ok reference ∧ reference.WireSafe) ∧
      (Reference.ofRepository .blob 7 "read me.md").WireSafe := by
  intro tag shifted line
  obtain ⟨survives, read, built, stored⟩ := wireSafe_iff_survives
  have untidy : parse "  Issue\t+0042 issue_42  project_7\n" = .ok tag := by decide
  obtain ⟨safe, back⟩ := read _ tag untidy
  refine ⟨untidy, safe, back, ?_, built line rfl, stored .blob 7 "read me.md" rfl⟩
  intro back
  exact absurd ((survives shifted).1 back).1.searchId (by decide)

/-! ### Fields -/

/-- A field that comes back as one field when it stands on a line with others. -/
def Survives (field : String) : Prop := field ≠ "" ∧ ∀ c ∈ field.toList, Text.isSpace c = false

/-- What is wrong with fields that cannot go on the wire: how many they are, and only if that is
right the first of them that would not come back. -/
inductive Unfit : List String → ReferenceError → Prop
  | count {fields : List String} (wrong : fields.length ≠ 3 ∧ fields.length ≠ 4) :
    Unfit fields (.wrongFieldCount fields.length)
  | field {before after : List String} {bad : String}
    (count : (before ++ bad :: after).length = 3 ∨ (before ++ bad :: after).length = 4)
    (fine : ∀ field ∈ before, Survives field) (torn : ¬ Survives bad) :
    Unfit (before ++ bad :: after) (.invalidField bad)

section
variable {fields : List String}

theorem survives_iff {field : String} : Survives field ↔ Text.isWord field.toList := by
  rw [Text.isWord_iff, Survives, ne_eq, ne_eq, String.toList_eq_nil_iff]

theorem torn_iff {field : String} : (!Text.isWord field.toList) = true ↔ ¬ Survives field := by
  rw [survives_iff, Bool.not_eq_true', Bool.not_eq_true]

theorem wireOfFields_ok_iff {wire : String} :
    wireOfFields fields = .ok wire ↔ (fields.length = 3 ∨ fields.length = 4) ∧
      (∀ field ∈ fields, Survives field) ∧ wire = joined fields := by
  unfold wireOfFields
  split
  next count =>
    split
    next bad found =>
      have torn := List.find?_some found
      refine iff_of_false (fun same => by cases same) ?_
      rintro ⟨-, solid, -⟩
      exact torn_iff.1 torn (solid bad (List.mem_of_find?_eq_some found))
    next missed =>
      have solid : ∀ field ∈ fields, Survives field := fun field inside =>
        not_not.1 (mt torn_iff.2 (List.find?_eq_none.1 missed field inside))
      rw [Except.ok.injEq, eq_comm, and_iff_right count, and_iff_right solid]
  next wrong => exact iff_of_false (fun same => by cases same) fun right => wrong right.1

theorem wireOfFields_error_iff {error : ReferenceError} :
    wireOfFields fields = .error error ↔ Unfit fields error := by
  constructor
  · intro failed
    unfold wireOfFields at failed
    split at failed
    next count =>
      split at failed
      next bad found =>
        obtain ⟨torn, before, after, rfl, fine⟩ := List.find?_eq_some_iff_append.1 found
        obtain rfl := Except.error.inj failed
        refine .field count (fun field inside => ?_) (torn_iff.1 torn)
        exact survives_iff.2 (by simpa using fine field inside)
      next => cases failed
    next wrong =>
      obtain rfl := Except.error.inj failed
      exact .count (not_or.1 wrong)
  · intro unfit
    cases unfit with
    | count wrong => exact if_neg (not_or.2 wrong)
    | @field before after bad count fine torn =>
      have found : (before ++ bad :: after).find? (fun field => !Text.isWord field.toList) =
          some bad := by
        refine List.find?_eq_some_iff_append.2 ⟨torn_iff.2 torn, before, after, rfl, ?_⟩
        intro field inside
        simpa using survives_iff.1 (fine field inside)
      rw [wireOfFields, if_pos count, found]

/-- Fields go on the wire if and only if there are three or four of them and each would come back.
Otherwise their number is reported, or the first one that would not. From the wire the fields are
read as they were given: as the same reference, or as the same error. -/
theorem wireOfFields_read (fields : List String) :
    ((∃ wire, wireOfFields fields = .ok wire) ↔ (fields.length = 3 ∨ fields.length = 4) ∧
      ∀ field ∈ fields, field ≠ "" ∧ ∀ c ∈ field.toList, Text.isSpace c = false) ∧
    (∀ error, wireOfFields fields = .error error ↔ Unfit fields error) ∧
    ∀ wire, wireOfFields fields = .ok wire → parse wire = ofFields fields := by
  refine ⟨?_, fun error => wireOfFields_error_iff, fun wire written => ?_⟩
  · simp only [wireOfFields_ok_iff, exists_and_left, exists_eq, and_true]
    rfl
  · obtain ⟨-, solid, rfl⟩ := wireOfFields_ok_iff.1 written
    rw [parse, words_joined fun field inside => survives_iff.1 (solid field inside)]

/-- Fields of no class come back as the same error. A wide blank in a field is found before the empty
field behind it, and neither of them where two fields are missing. -/
theorem wireOfFields_read_ghost :
    let ghost := ["Ghost", "+042", "ghost_42"]
    let torn := ["Issue", "4\u30002", ""]
    (∃ wire, wireOfFields ghost = .ok wire ∧ parse wire = .error (.unknownClass "Ghost")) ∧
      wireOfFields torn = .error (.invalidField "4\u30002") ∧
      wireOfFields torn.tail = .error (.wrongFieldCount 2) := by
  intro ghost torn
  obtain ⟨written, -, back⟩ := wireOfFields_read ghost
  obtain ⟨-, refused, -⟩ := wireOfFields_read torn
  obtain ⟨-, short, -⟩ := wireOfFields_read torn.tail
  have solid (field : String) (inside : field ∈ ghost) : Survives field := by
    refine survives_iff.2 ?_
    revert field
    decide
  obtain ⟨wire, known⟩ := written.2 ⟨Or.inl rfl, solid⟩
  refine ⟨⟨wire, known, (back wire known).trans (by decide)⟩, (refused _).2 ?_, (short _).2 ?_⟩
  · refine .field (Or.inl rfl) (List.forall_mem_singleton.2 (survives_iff.2 rfl)) ?_
    exact mt survives_iff.1 (by decide)
  · exact .count (by decide)

end

end Reference

end SearchRelay
